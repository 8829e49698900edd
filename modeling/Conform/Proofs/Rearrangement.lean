import Mathlib.Data.List.Sort
import Conform.Proofs.Guarded
import Conform.Proofs.History
/-!
# The order of definitions

What is registered may be registered in any order, before or after the references to it, as long
as no key is registered twice. The registry then finds the same shapes and misses the same keys,
so it is finished with the same answer. Only the order of its entries differs, and evaluation does
not see it.
-/

namespace Conform

namespace Registry

/-- Where every key occurs once, the order of entries does not matter for what is found. -/
theorem lookup_eq_of_perm {α : Type} {entries entries' : List (String × α)}
    (perm : entries.Perm entries') (distinct : (entries.map Prod.fst).Nodup) (key : String) :
    entries'.lookup key = entries.lookup key := by
  have distinct' := (perm.map Prod.fst).nodup distinct
  ext value
  rw [lookup_eq_some_iff_mem distinct, lookup_eq_some_iff_mem distinct', perm.mem_iff]

variable {calls calls' : List Call}

/-- Rearranged calls register the same. -/
theorem indexed_perm (perm : calls.Perm calls') : (indexed calls).Perm (indexed calls') :=
  perm.filterMap _

/-- Rearranged calls register under the same keys. -/
theorem indexedKeys_perm (perm : calls.Perm calls') :
    (indexedKeys calls).Perm (indexedKeys calls') :=
  (indexed_perm perm).map _

/-- Rearranged calls make references to the same keys. -/
theorem referredKeys_perm (perm : calls.Perm calls') :
    (referredKeys calls).Perm (referredKeys calls') :=
  perm.filterMap _

/-- After rearranged calls the same keys are missing, and they are listed in the same order. -/
theorem unresolved_eq_of_perm (perm : calls.Perm calls') :
    (ofCalls calls').unresolved = (ofCalls calls).unresolved := by
  apply List.Pairwise.eq_of_mem_iff (pairwise_lt_unresolved _) (pairwise_lt_unresolved _)
  intro key
  rw [mem_unresolved_ofCalls_iff, mem_unresolved_ofCalls_iff, (referredKeys_perm perm).mem_iff,
    (indexedKeys_perm perm).mem_iff]

end Registry

namespace Store

open Registry

variable {store : Store} {id : StorageId} {calls calls' : List Call}

/-- Two stores that finished a registry after the same calls, made in different orders, resolve
every reference alike if they have the same otherwise. -/
theorem resolve_eq_of_perm {first second : Store} (perm : calls.Perm calls')
    (distinct : (indexedKeys calls).Nodup) (closed : first.cell id = .finished (indexed calls))
    (closed' : second.cell id = .finished (indexed calls'))
    (elsewhere : ∀ other, id ≠ other → second.cell other = first.cell other)
    (reference : Reference) : second.resolve reference = first.resolve reference := by
  by_cases same : id = reference.storage
  · subst same
    have found := lookup_eq_of_perm (indexed_perm perm) distinct reference.key
    simp only [resolve, closed, closed', Cell.entries, found]
  · simp only [resolve, elsewhere _ same]

/-- Two stores in which a registry was given the same calls, in different orders, and that have the
same otherwise, finish or refuse it with the same answer. -/
theorem finish?_of_perm {first second : Store} (perm : calls.Perm calls')
    (distinct : (indexedKeys calls).Nodup) (opened : first.cell id = .opened (ofCalls calls))
    (opened' : second.cell id = .opened (ofCalls calls'))
    (elsewhere : ∀ other, id ≠ other → second.cell other = first.cell other) (root : HeldShape) :
    ∃ answer later later', first.finish? id root = some (answer, later) ∧
      second.finish? id root = some (answer, later') ∧
      ((∃ keys, answer = .error (.unresolvedKeys keys)) ∨
        answer = .ok (.finished id root) ∧
          ∀ shape candidate, later'.evaluate shape candidate = later.evaluate shape candidate) := by
  have distinct' := (indexedKeys_perm perm).nodup distinct
  by_cases complete : ∀ key ∈ referredKeys calls, key ∈ indexedKeys calls
  · have complete' : ∀ key ∈ referredKeys calls', key ∈ indexedKeys calls' := by
      intro key referred
      rw [← (referredKeys_perm perm).mem_iff] at referred
      rw [← (indexedKeys_perm perm).mem_iff]
      exact complete key referred
    refine ⟨_, _, _, (finish?_eq_ok_iff opened).mpr ⟨distinct, complete, rfl, rfl⟩,
      (finish?_eq_ok_iff opened').mpr ⟨distinct', complete', rfl, rfl⟩, .inr ⟨rfl, ?_⟩⟩
    intro shape candidate
    apply evaluate_congr
    apply resolve_eq_of_perm perm distinct
    · exact cell_setCell_same _ _ _ (lt_length_of_cell opened nofun)
    · exact cell_setCell_same _ _ _ (lt_length_of_cell opened' nofun)
    · intro other different
      rw [cell_setCell_other _ _ _ _ different, cell_setCell_other _ _ _ _ different]
      exact elsewhere other different
  · push Not at complete
    obtain ⟨key, referred, absent⟩ := complete
    have referred' := (referredKeys_perm perm).mem_iff.mp referred
    have absent' := mt (indexedKeys_perm perm).mem_iff.mpr absent
    have refused := finish_ofCalls_of_missing distinct referred absent
    have refused' := finish_ofCalls_of_missing distinct' referred' absent'
    rw [unresolved_eq_of_perm perm] at refused'
    exact ⟨_, _, _, finish?_eq_some_iff.mpr ⟨_, opened, .inr ⟨_, refused, rfl, rfl⟩⟩,
      finish?_eq_some_iff.mpr ⟨_, opened', .inr ⟨_, refused', rfl, rfl⟩⟩, .inl ⟨_, rfl⟩⟩

/-- Calls on a new registry may be made in any order, if they register no key twice: the registry
is finished or refused with the same answer, and every shape evaluates the same afterwards. -/
theorem finish_after_rearranged_calls (fresh : store.cell id = .opened {})
    (perm : calls.Perm calls') (distinct : (indexedKeys calls).Nodup) (root : HeldShape) :
    ∃ answer later later',
      (store.callAll id calls).finish? id root = some (answer, later) ∧
      (store.callAll id calls').finish? id root = some (answer, later') ∧
      ((∃ keys, answer = .error (.unresolvedKeys keys)) ∨
        answer = .ok (.finished id root) ∧
          ∀ shape candidate, later'.evaluate shape candidate = later.evaluate shape candidate) := by
  apply finish?_of_perm perm distinct (cell_callAll_same fresh calls)
    (cell_callAll_same fresh calls')
  intro other different
  rw [cell_callAll_other different, cell_callAll_other different]

/-- Lists may be defined before nodes or after them. -/
theorem lists_in_either_order :
    let store : Store := ⟨[.opened {}]⟩
    let lists : List Call := [.refer "Node", .index "List" (.of (.list 0))]
    let nodes : List Call := [.refer "List", .index "Node" (.of (.node 0))]
    ∃ later, (store.callAll 0 (nodes ++ lists)).finish? 0 (.of (.list 0)) =
        some (.ok (.finished 0 (.of (.list 0))), later) ∧
      ∀ candidate, later.evaluate (.list 0) candidate = ofLists.evaluate (.list 0) candidate := by
  intro store lists nodes
  have fresh : store.cell 0 = .opened {} := rfl
  have accepted : (store.callAll 0 (lists ++ nodes)).finish? 0 (.of (.list 0)) =
      some (.ok (.finished 0 (.of (.list 0))), ofLists) :=
    (finish?_eq_ok_iff (cell_callAll_same fresh _)).mpr ⟨by decide, by decide, rfl, rfl⟩
  have perm : (lists ++ nodes).Perm (nodes ++ lists) := List.perm_append_comm
  obtain ⟨answer, first, later, finished, finished', same⟩ :=
    finish_after_rearranged_calls fresh perm (by decide) (.of (.list 0))
  obtain ⟨rfl, rfl⟩ := Prod.mk.inj (Option.some.inj (accepted.symm.trans finished))
  rcases same with ⟨_, refused⟩ | ⟨_, alike⟩
  · cases refused
  · exact ⟨later, finished', alike (.list 0)⟩

end Store

end Conform

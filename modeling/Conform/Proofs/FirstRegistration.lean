import Mathlib.Data.List.TFAE
import Mathlib.Tactic.TFAE
import Conform.Proofs.History
/-!
# The first registration counts

An open registry is a map that is only added to. Whatever else happens to a store, the calls on the
registry alone say what it shows: its keys are the registered ones in the order of their first
registration, and a key stands for the shape of its first registration, whether one asks the
registry or follows a reference, and whenever the reference was made. Registering a key again and
making a reference change nothing of this. No call finishes a registry, so that references into an
open one are always looked up among what was registered so far.
-/

namespace Conform

namespace Registry

/-- The keys of a registry stand in the order of their first registration: a further call leaves the
positions of the keys that were registered before. -/
theorem pairwise_keys_ofCalls (calls : List Call) :
    (ofCalls calls).keys.Pairwise fun first second =>
      (indexedKeys calls).idxOf first < (indexedKeys calls).idxOf second := by
  induction calls using List.reverseRecOn with
  | nil => exact .nil
  | append_singleton calls last ih =>
    cases last with
    | refer other => rwa [ofCalls_concat, indexedKeys_concat_refer]
    | index key shape =>
      have position {other : String} (known : other ∈ (ofCalls calls).keys) :
          (indexedKeys calls ++ [key]).idxOf other = (indexedKeys calls).idxOf other :=
        List.idxOf_append_of_mem ((mem_keys_ofCalls_iff calls other).mp known)
      have earlier : (ofCalls calls).keys.Pairwise fun first second =>
          (indexedKeys calls ++ [key]).idxOf first < (indexedKeys calls ++ [key]).idxOf second := by
        refine ih.imp_of_mem fun known known' below => ?_
        rwa [position known, position known']
      rw [ofCalls_concat, indexedKeys_concat_index, call, keys_index]
      split
      · exact earlier
      · rename_i new
        refine List.pairwise_append.mpr ⟨earlier, List.pairwise_singleton _ _, ?_⟩
        intro other known last listed
        obtain rfl := List.mem_singleton.mp listed
        have unlisted : last ∉ indexedKeys calls := mt (mem_keys_ofCalls_iff calls last).mpr new
        rw [position known, List.idxOf_append_of_notMem unlisted]
        have inside := List.idxOf_lt_length_iff.mpr ((mem_keys_ofCalls_iff calls other).mp known)
        omega

/-- No key of a registry occurs twice. -/
theorem nodup_keys_ofCalls (calls : List Call) : (ofCalls calls).keys.Nodup := by
  refine (pairwise_keys_ofCalls calls).imp ?_
  rintro first _ below rfl
  exact Nat.lt_irrefl _ below

/-- A registry has the shape of the first call that registers under a key. -/
theorem get?_ofCalls_of_first {before : List Call} {key : String}
    (first : key ∉ indexedKeys before) (shape : HeldShape) (after : List Call) :
    (ofCalls (before ++ .index key shape :: after)).get? key = some shape := by
  have split : indexed (before ++ .index key shape :: after) =
      indexed before ++ (key, shape) :: indexed after := by
    rw [indexed, List.filterMap_append]
    rfl
  have absent : (indexed before).lookup key = none := by
    refine List.lookup_eq_none_iff.mpr fun entry listed => ?_
    refine bne_iff_ne.mpr ?_
    rintro rfl
    exact first (List.mem_map.mpr ⟨entry, listed, rfl⟩)
  rw [get?_ofCalls, split, List.lookup_append, absent, List.lookup_cons_self]
  rfl

/-- A call that registers nothing under a new key leaves the entries as they are. -/
theorem entries_call_of_known {registry : Registry} {last : Call}
    (known : ∀ key shape, last.indexed? = some (key, shape) → key ∈ registry.keys) :
    (registry.call last).entries = registry.entries := by
  cases last with
  | refer key => rfl
  | index key shape =>
    have found : registry.contains key = true := List.contains_iff_mem.mpr (known key shape rfl)
    rw [call, index, if_pos found]

end Registry

namespace Store

open Registry

/-- What an open registry shows is what calls on it registered first. -/
structure ShowsFirst (store : Store) (id : StorageId) (calls : List Call)
    (registry : Registry) : Prop where
  /-- Every key is listed once. -/
  nodup : registry.keys.Nodup
  /-- The keys are those under which something was registered. -/
  listed : ∀ key, key ∈ registry.keys ↔ key ∈ indexedKeys calls
  /-- They are listed in the order of their first registration. -/
  ordered : registry.keys.Pairwise fun first second =>
    (indexedKeys calls).idxOf first < (indexedKeys calls).idxOf second
  /-- The size is the number of keys. -/
  size : registry.size = registry.keys.length
  /-- The registry is empty if that number is zero. -/
  isEmpty : registry.isEmpty = true ↔ registry.keys.length = 0
  /-- All ways to ask whether a key has a shape agree. -/
  known : ∀ key, [registry.contains key = true, key ∈ registry.keys,
    (registry.get? key).isSome = true, ∃ shape, store.resolve ⟨id, key⟩ = .ok shape].TFAE
  /-- The registry and every reference to a key have the shape of its first registration. -/
  first : ∀ before key shape after, calls = before ++ .index key shape :: after →
    key ∉ indexedKeys before →
      registry.get? key = some shape ∧ store.resolve ⟨id, key⟩ = .ok shape

/-- References into an open storage are looked up in its registry. -/
theorem resolve_of_opened {store : Store} {id : StorageId} {registry : Registry}
    (opened : store.cell id = .opened registry) (key : String) :
    store.resolve ⟨id, key⟩ =
      match registry.get? key with
      | some shape => .ok shape
      | none => .error (.unresolvedKey key) := by
  rw [resolve, opened]
  rfl

/-- An open registry shows what was registered first. -/
theorem showsFirst_of_opened {store : Store} {id : StorageId} {calls : List Call}
    (opened : store.cell id = .opened (ofCalls calls)) :
    store.ShowsFirst id calls (ofCalls calls) := by
  have looked := resolve_of_opened opened
  constructor
  case nodup => exact nodup_keys_ofCalls calls
  case listed => exact mem_keys_ofCalls_iff calls
  case ordered => exact pairwise_keys_ofCalls calls
  case size => exact List.length_map _ |>.symm
  case isEmpty =>
    rw [List.length_eq_zero_iff, keys, List.map_eq_nil_iff, isEmpty, List.isEmpty_iff]
  case known =>
    intro key
    tfae_have 1 ↔ 2 := List.contains_iff_mem
    tfae_have 3 ↔ 2 := isSome_lookup_iff
    tfae_have 3 ↔ 4 := by
      rw [looked key]
      cases (ofCalls calls).get? key <;> simp
    tfae_finish
  case first =>
    rintro before key shape after rfl first
    have found := get?_ofCalls_of_first first shape after
    exact ⟨found, by rw [looked key, found]⟩

/-- A call that registers nothing under a new key leaves every reference as it was. -/
theorem resolve_call_of_known {store : Store} {id : StorageId} {registry : Registry}
    (opened : store.cell id = .opened registry) {last : Call}
    (known : ∀ key shape, last.indexed? = some (key, shape) → key ∈ registry.keys)
    (reference : Reference) :
    (store.call id last).resolve reference = store.resolve reference := by
  obtain ⟨storage, key⟩ := reference
  by_cases same : id = storage
  · subst same
    rw [resolve_of_opened (cell_call_same opened last), resolve_of_opened opened, get?, get?,
      entries_call_of_known known]
  · simp only [resolve, cell_call_other same last]

/-- Whatever has happened to a store, a registry that is still open is a map that was only added
to, and the first registration under a key counts: so it shows, and so do the references into it. A
call that registers nothing under a new key changes nothing of this, neither what the registry shows
nor what any reference stands for. No call finishes a registry, and one that is open was open ever
since it was created, so that references were never looked up anywhere but in its entries. -/
theorem open_registry_keeps_first_registrations {changes : List Change} {store : Store}
    (history : History {} changes store) {id : StorageId} {registry : Registry}
    (opened : store.cell id = .opened registry) :
    store.ShowsFirst id (callsOn id changes) registry ∧
    (∀ last : Call,
      (∀ key shape, last.indexed? = some (key, shape) → key ∈ registry.keys) →
        ∃ after, (store.call id last).cell id = .opened after ∧
          after.keys = registry.keys ∧ after.size = registry.size ∧
          after.isEmpty = registry.isEmpty ∧
          (∀ key, after.contains key = registry.contains key ∧
            after.get? key = registry.get? key) ∧
          ∀ reference, (store.call id last).resolve reference = store.resolve reference) ∧
    (∀ calls, ∃ after, (store.callAll id calls).cell id = .opened after ∧
      ∀ key, (store.callAll id calls).resolve ⟨id, key⟩ =
        match after.get? key with
        | some shape => .ok shape
        | none => .error (.unresolvedKey key)) ∧
    ∀ earlier later middle, History {} earlier middle → History middle later store →
      id < middle.cells.length → ∃ before, middle.cell id = .opened before := by
  refine ⟨?_, ?_, ?_, ?_⟩
  · obtain rfl := history.records.opened id registry opened
    exact showsFirst_of_opened opened
  · intro last known
    have entries := entries_call_of_known known
    refine ⟨registry.call last, cell_call_same opened last, ?_, ?_, ?_, fun key => ⟨?_, ?_⟩,
      resolve_call_of_known opened known⟩
    · rw [keys, entries, keys]
    · rw [size, entries, size]
    · rw [isEmpty, entries, isEmpty]
    · rw [contains, keys, entries, contains, keys]
    · rw [get?, entries, get?]
  · intro calls
    have still := cell_callAll_same opened calls
    exact ⟨_, still, resolve_of_opened still⟩
  · intro earlier later middle _ onward created
    have evolves := onward.evolves.cell id created
    rw [opened] at evolves
    generalize middle.cell id = state at evolves
    cases evolves with
    | grown _ => exact ⟨_, rfl⟩

/-- A reference was made before its key was registered, and the key was registered twice, after
another registry got the same key. It is listed once, at the place of its first registration, and
that shape is the one that the reference stands for, also when the key is registered again. -/
theorem leaf_stands_for_first_shape :
    let store : Store := (((((({} : Store).create.call 0 (.refer "Leaf")).create.call 1
      (.index "Leaf" (.of .undefined))).call 0 (.index "Tree" (.of (.tree 0)))).call 0
      (.index "Leaf" (.of .null))).call 0 (.index "Leaf" (.of (.tree 1))))
    let registry : Registry := ofCalls [.refer "Leaf", .index "Tree" (.of (.tree 0)),
      .index "Leaf" (.of .null), .index "Leaf" (.of (.tree 1))]
    (∃ changes, History {} changes store) ∧ store.cell 0 = .opened registry ∧
      registry.keys = ["Tree", "Leaf"] ∧ registry.get? "Leaf" = some (.of .null) ∧
      store.resolve ⟨0, "Leaf"⟩ = .ok (.of .null) ∧
      (store.call 0 (.index "Leaf" (.of .undefined))).resolve ⟨0, "Leaf"⟩ = .ok (.of .null) := by
  intro store registry
  have registered {changes : List Change} {middle : Store} (before : History {} changes middle)
      (id : StorageId) {registry : Registry} (opened : middle.cell id = .opened registry)
      (key : String) (shape : HeldShape) (rootless : shape.value.roots = []) :
      History {} (changes ++ [.call id (.index key shape)])
        (middle.call id (.index key shape)) := by
    refine before.snoc (.call opened fun other inner same root kept => ?_)
    cases same
    rw [rootless] at kept
    cases kept
  have created : History {} [.create] ({} : Store).create := Step.create.history
  have referred := created.snoc (@Step.call _ 0 _ (.refer "Leaf") rfl nofun)
  have other := registered (referred.snoc .create) 1 rfl "Leaf" (.of .undefined) rfl
  have tree := registered other 0 rfl "Tree" (.of (.tree 0)) rfl
  have leaf := registered tree 0 rfl "Leaf" (.of .null) rfl
  have history := registered leaf 0 rfl "Leaf" (.of (.tree 1)) rfl
  have opened : store.cell 0 = .opened registry := rfl
  obtain ⟨shows, unchanged, _, _⟩ := open_registry_keeps_first_registrations history opened
  obtain ⟨found, resolved⟩ := shows.first [.refer "Leaf", .index "Tree" (.of (.tree 0))] "Leaf"
    (.of .null) [.index "Leaf" (.of (.tree 1))] rfl (by decide)
  have listed : registry.keys = ["Tree", "Leaf"] := by decide
  have known (key : String) (shape : HeldShape)
      (again : (Call.index "Leaf" (.of .undefined)).indexed? = some (key, shape)) :
      key ∈ registry.keys := by
    cases again
    exact listed ▸ List.mem_cons_of_mem _ List.mem_cons_self
  obtain ⟨_, _, _, _, _, _, same⟩ := unchanged (.index "Leaf" (.of .undefined)) known
  exact ⟨⟨_, history⟩, opened, listed, found, resolved, (same _).trans resolved⟩

end Store

end Conform

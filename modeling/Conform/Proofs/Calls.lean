import Mathlib.Data.List.Induction
import Conform.Proofs.Evolution
/-!
# Registries as results of calls

Two kinds of calls are made on an open registry: a shape is registered under a key, or a reference
to a key is made. A registry is determined by the calls made on it since it was created. It has the
first shape that was registered under each key, it knows every key that a reference was made for,
and its duplicates are the keys of the calls that registered once more. So whether it can be
finished, and why not, can be told from the calls alone.
-/

namespace Conform

namespace Registry

/-- What is done with an open registry. -/
inductive Call where
  /-- A shape is registered under a key. -/
  | index (key : String) (shape : HeldShape)
  /-- A reference to a key is made. -/
  | refer (key : String)

/-- The key and the shape of a registration. -/
def Call.indexed? : Call → Option (String × HeldShape)
  | .index key shape => some (key, shape)
  | .refer _ => none

/-- The key of a reference. -/
def Call.referred? : Call → Option String
  | .index _ _ => none
  | .refer key => some key

/-- The registry after a call. -/
def call (registry : Registry) : Call → Registry
  | .index key shape => registry.index key shape
  | .refer key => registry.refer key

/-- The registry after calls, if it was new before. -/
def ofCalls (calls : List Call) : Registry := calls.foldl call {}

/-- What calls register, in their order; a key may occur several times. -/
def indexed (calls : List Call) : List (String × HeldShape) := calls.filterMap Call.indexed?

/-- The keys under which calls register. -/
def indexedKeys (calls : List Call) : List String := (indexed calls).map Prod.fst

/-- The keys that calls make references to. -/
def referredKeys (calls : List Call) : List String := calls.filterMap Call.referred?

/-- The last call is made on what the calls before it led to. -/
theorem ofCalls_concat (calls : List Call) (last : Call) :
    ofCalls (calls ++ [last]) = (ofCalls calls).call last := by
  simp only [ofCalls, List.foldl_append, List.foldl_cons, List.foldl_nil]

/-- A registration comes behind the earlier ones. -/
theorem indexed_concat_index (calls : List Call) (key : String) (shape : HeldShape) :
    indexed (calls ++ [.index key shape]) = indexed calls ++ [(key, shape)] :=
  List.filterMap_append

/-- Making a reference registers nothing. -/
theorem indexed_concat_refer (calls : List Call) (key : String) :
    indexed (calls ++ [.refer key]) = indexed calls :=
  List.filterMap_append.trans (List.append_nil _)

/-- A registered key comes behind the earlier ones. -/
theorem indexedKeys_concat_index (calls : List Call) (key : String) (shape : HeldShape) :
    indexedKeys (calls ++ [.index key shape]) = indexedKeys calls ++ [key] := by
  rw [indexedKeys, indexed_concat_index, List.map_append]
  rfl

/-- Making a reference registers no key. -/
theorem indexedKeys_concat_refer (calls : List Call) (key : String) :
    indexedKeys (calls ++ [.refer key]) = indexedKeys calls := by
  rw [indexedKeys, indexed_concat_refer, indexedKeys]

/-- A call grows the registry. -/
theorem extends_call (registry : Registry) (last : Call) :
    registry.Extends (registry.call last) := by
  cases last with
  | index key shape => exact registry.extends_index key shape
  | refer key => exact registry.extends_refer key

/-- Calls grow the registry. -/
theorem extends_foldl_call (registry : Registry) (calls : List Call) :
    registry.Extends (calls.foldl call registry) := by
  induction calls generalizing registry with
  | nil => exact .refl registry
  | cons first rest ih => exact (registry.extends_call first).trans (ih _)

/-- A registry knows the keys that references were made for. -/
theorem referenced_ofCalls (calls : List Call) :
    (ofCalls calls).referenced = referredKeys calls := by
  induction calls using List.reverseRecOn with
  | nil => rfl
  | append_singleton calls last ih =>
    rw [ofCalls_concat, referredKeys, List.filterMap_append, ← referredKeys, ← ih]
    cases last with
    | refer key => rfl
    | index key shape =>
      simp only [call, index, List.filterMap_cons, Call.referred?, List.filterMap_nil,
        List.append_nil]
      split <;> rfl

/-- The keys of a registry are those under which something was registered. -/
theorem mem_keys_ofCalls_iff (calls : List Call) (key : String) :
    key ∈ (ofCalls calls).keys ↔ key ∈ indexedKeys calls := by
  induction calls using List.reverseRecOn with
  | nil => exact Iff.rfl
  | append_singleton calls last ih =>
    cases last with
    | refer other => rwa [ofCalls_concat, indexedKeys_concat_refer]
    | index other shape =>
      rw [ofCalls_concat, indexedKeys_concat_index, List.mem_append, List.mem_singleton, ← ih,
        call, keys_index]
      split
      · constructor
        · exact .inl
        · rintro (old | rfl)
          · exact old
          · assumption
      · rw [List.mem_append, List.mem_singleton]

/-- A registry has the first shape that was registered under each key. -/
theorem get?_ofCalls (calls : List Call) (key : String) :
    (ofCalls calls).get? key = (indexed calls).lookup key := by
  induction calls using List.reverseRecOn with
  | nil => rfl
  | append_singleton calls last ih =>
    cases last with
    | refer other => rw [ofCalls_concat, indexed_concat_refer, ← ih, call, get?_refer]
    | index other shape =>
      rw [ofCalls_concat, indexed_concat_index, List.lookup_append, ← ih, call, index]
      split
      · rename_i known
        cases found : (ofCalls calls).get? key with
        | some first => exact found
        | none =>
          have different : key ≠ other := by
            rintro rfl
            obtain ⟨entry, listed, same⟩ := List.mem_map.mp (List.contains_iff_mem.mp known)
            have absent := List.lookup_eq_none_iff.mp found entry listed
            simp [same] at absent
          have skipped : [(other, shape)].lookup key = none := by simp [different]
          rw [skipped]
          exact found
      · exact List.lookup_append

/-- Whatever a registry has was registered. -/
theorem mem_indexed_of_mem_entries {calls : List Call} {entry : String × HeldShape}
    (member : entry ∈ (ofCalls calls).entries) : entry ∈ indexed calls := by
  induction calls using List.reverseRecOn with
  | nil => cases member
  | append_singleton calls last ih =>
    rw [ofCalls_concat] at member
    cases last with
    | refer key =>
      rw [indexed_concat_refer]
      exact ih member
    | index key shape =>
      rw [indexed_concat_index, List.mem_append, List.mem_singleton]
      exact (mem_entries_index member).imp_left ih

/-- Unless a key was registered twice, the registry has everything that was registered. -/
theorem entries_ofCalls {calls : List Call} (distinct : (indexedKeys calls).Nodup) :
    (ofCalls calls).entries = indexed calls := by
  induction calls using List.reverseRecOn with
  | nil => rfl
  | append_singleton calls last ih =>
    cases last with
    | refer key =>
      rw [indexedKeys_concat_refer] at distinct
      rw [ofCalls_concat, indexed_concat_refer, ← ih distinct]
      rfl
    | index key shape =>
      rw [indexedKeys_concat_index] at distinct
      obtain ⟨before, _, apart⟩ := List.nodup_append.mp distinct
      have absent : ¬ (ofCalls calls).contains key = true := by
        intro known
        have listed := (mem_keys_ofCalls_iff calls key).mp (List.contains_iff_mem.mp known)
        exact apart key listed key (List.mem_singleton.mpr rfl) rfl
      rw [ofCalls_concat, indexed_concat_index, ← ih before, call, index, if_neg absent]

/-- There is no duplicate exactly if no key was registered twice. -/
theorem duplicates_ofCalls_eq_nil_iff (calls : List Call) :
    (ofCalls calls).duplicates = [] ↔ (indexedKeys calls).Nodup := by
  induction calls using List.reverseRecOn with
  | nil => simp [ofCalls, indexedKeys, indexed]
  | append_singleton calls last ih =>
    cases last with
    | refer key => rwa [ofCalls_concat, indexedKeys_concat_refer]
    | index key shape =>
      rw [ofCalls_concat, indexedKeys_concat_index, call, index]
      split
      · rename_i known
        have listed := (mem_keys_ofCalls_iff calls key).mp (List.contains_iff_mem.mp known)
        simp [List.nodup_append, listed]
      · rename_i absent
        have unlisted : key ∉ indexedKeys calls := fun listed =>
          absent (List.contains_iff_mem.mpr ((mem_keys_ofCalls_iff calls key).mpr listed))
        rw [ih, List.nodup_append]
        constructor
        · intro distinct
          refine ⟨distinct, List.nodup_singleton key, ?_⟩
          rintro other listed _ rest rfl
          exact unlisted (List.mem_singleton.mp rest ▸ listed)
        · exact fun distinct => distinct.1

/-- The first duplicate is the key of the first call that registered once more. -/
theorem duplicates_ofCalls_of_repeated {before : List Call} {key : String}
    (distinct : (indexedKeys before).Nodup) (known : key ∈ indexedKeys before) (shape : HeldShape)
    (after : List Call) :
    ∃ more, (ofCalls (before ++ .index key shape :: after)).duplicates = key :: more := by
  have none := (duplicates_ofCalls_eq_nil_iff before).mpr distinct
  have found : (ofCalls before).contains key = true :=
    List.contains_iff_mem.mpr ((mem_keys_ofCalls_iff before key).mpr known)
  have first : ((ofCalls before).call (.index key shape)).duplicates = [key] := by
    rw [call, index, if_pos found, none]
    rfl
  have grown := extends_foldl_call ((ofCalls before).call (.index key shape)) after
  obtain ⟨more, split⟩ := grown.duplicates
  rw [first] at split
  rw [ofCalls, List.foldl_append, List.foldl_cons, ← ofCalls, ← split]
  exact ⟨more, rfl⟩

/-- Where a key was registered twice, some call was the first to register once more. -/
theorem exists_first_repeated {calls : List Call} (repeated : ¬ (indexedKeys calls).Nodup) :
    ∃ before key shape after, calls = before ++ .index key shape :: after ∧
      (indexedKeys before).Nodup ∧ key ∈ indexedKeys before := by
  induction calls using List.reverseRecOn with
  | nil => exact absurd List.nodup_nil repeated
  | append_singleton calls last ih =>
    by_cases distinct : (indexedKeys calls).Nodup
    · cases last with
      | refer key =>
        rw [indexedKeys_concat_refer] at repeated
        exact absurd distinct repeated
      | index key shape =>
        refine ⟨calls, key, shape, [], rfl, distinct, ?_⟩
        by_contra unlisted
        rw [indexedKeys_concat_index, ← List.concat_eq_append] at repeated
        exact repeated (List.Nodup.concat unlisted distinct)
    · obtain ⟨before, key, shape, after, rfl, first⟩ := ih distinct
      exact ⟨before, key, shape, after ++ [last], by simp, first⟩

/-- The missing keys are those of references under which nothing was registered. -/
theorem mem_unresolved_ofCalls_iff (calls : List Call) (key : String) :
    key ∈ (ofCalls calls).unresolved ↔ key ∈ referredKeys calls ∧ key ∉ indexedKeys calls := by
  rw [mem_unresolved_iff, referenced_ofCalls, mem_keys_ofCalls_iff]

/-- A key that was registered twice is in the way, whatever is missing. -/
theorem finish_ofCalls_of_repeated {before : List Call} {key : String}
    (distinct : (indexedKeys before).Nodup) (known : key ∈ indexedKeys before) (shape : HeldShape)
    (after : List Call) :
    (ofCalls (before ++ .index key shape :: after)).finish = .error (.duplicateKey key) := by
  obtain ⟨more, duplicates⟩ := duplicates_ofCalls_of_repeated distinct known shape after
  rw [finish, duplicates]

/-- Otherwise all missing keys are in the way, if there is one. -/
theorem finish_ofCalls_of_missing {calls : List Call} (distinct : (indexedKeys calls).Nodup)
    {key : String} (referred : key ∈ referredKeys calls) (absent : key ∉ indexedKeys calls) :
    (ofCalls calls).finish = .error (.unresolvedKeys (ofCalls calls).unresolved) := by
  have none := (duplicates_ofCalls_eq_nil_iff calls).mpr distinct
  have missing := (mem_unresolved_ofCalls_iff calls key).mpr ⟨referred, absent⟩
  rw [finish, none]
  cases unresolved : (ofCalls calls).unresolved with
  | nil =>
    rw [unresolved] at missing
    cases missing
  | cons first rest => rfl

/-- Otherwise nothing is in the way. -/
theorem finish_ofCalls_of_complete {calls : List Call} (distinct : (indexedKeys calls).Nodup)
    (complete : ∀ key ∈ referredKeys calls, key ∈ indexedKeys calls) :
    (ofCalls calls).finish = .ok (indexed calls) := by
  rw [finish_eq_ok_iff]
  refine ⟨(duplicates_ofCalls_eq_nil_iff calls).mpr distinct, ?_, (entries_ofCalls distinct).symm⟩
  intro key referred
  rw [referenced_ofCalls] at referred
  exact (mem_keys_ofCalls_iff calls key).mpr (complete key referred)

/-- A registry that can be finished was given every key once, and every key that a reference was
made for; it keeps all that was registered. -/
theorem complete_of_finish_ofCalls {calls : List Call} {entries : Entries}
    (accepted : (ofCalls calls).finish = .ok entries) :
    (indexedKeys calls).Nodup ∧ (∀ key ∈ referredKeys calls, key ∈ indexedKeys calls) ∧
      entries = indexed calls := by
  obtain ⟨none, complete, rfl⟩ := (finish_eq_ok_iff _ _).mp accepted
  have distinct := (duplicates_ofCalls_eq_nil_iff calls).mp none
  refine ⟨distinct, ?_, entries_ofCalls distinct⟩
  intro key referred
  rw [← referenced_ofCalls] at referred
  exact (mem_keys_ofCalls_iff calls key).mp (complete key referred)

end Registry

namespace Store

open Registry

/-- The store after a call on the registry of a storage. -/
def call (store : Store) (id : StorageId) : Call → Store
  | .index key shape => store.index id key shape
  | .refer key => store.refer ⟨id, key⟩

/-- The store after calls on the registry of a storage, one after another. -/
def callAll (store : Store) (id : StorageId) (calls : List Call) : Store :=
  calls.foldl (fun store call => store.call id call) store

/-- A call changes the registry of the storage. -/
theorem call_eq_modifyRegistry (store : Store) (id : StorageId) (last : Call) :
    store.call id last = store.modifyRegistry id (·.call last) := by
  cases last <;> rfl

/-- While it is open, the registry of a storage is changed. -/
theorem modifyRegistry_of_opened {store : Store} {id : StorageId} {registry : Registry}
    (opened : store.cell id = .opened registry) (change : Registry → Registry) :
    store.modifyRegistry id change = store.setCell id (.opened (change registry)) := by
  simp only [modifyRegistry, opened?, opened]

/-- A call on an open registry leads to the registry after the call. -/
theorem cell_call_same {store : Store} {id : StorageId} {registry : Registry}
    (opened : store.cell id = .opened registry) (last : Call) :
    (store.call id last).cell id = .opened (registry.call last) := by
  rw [call_eq_modifyRegistry, modifyRegistry_of_opened opened]
  exact cell_setCell_same _ _ _ (lt_length_of_cell opened nofun)

/-- Calls on an open registry lead to the registry after these calls. -/
theorem cell_callAll_same {store : Store} {id : StorageId} {registry : Registry}
    (opened : store.cell id = .opened registry) (calls : List Call) :
    (store.callAll id calls).cell id = .opened (calls.foldl Registry.call registry) := by
  induction calls generalizing store registry with
  | nil => exact opened
  | cons first rest ih => exact ih (cell_call_same opened first)

/-- Calls on a new registry lead to the registry of these calls. -/
theorem cell_callAll_create (store : Store) (calls : List Call) :
    (store.create.callAll store.next calls).cell store.next = .opened (ofCalls calls) :=
  cell_callAll_same store.cell_create_next calls

/-- The registry of a storage that is open. -/
theorem opened?_of_cell {store : Store} {id : StorageId} {registry : Registry}
    (opened : store.cell id = .opened registry) : store.opened? id = some registry := by
  simp only [opened?, opened]

/-- A registry is finished successfully exactly if it was given every key once, and every key that
a reference was made for. The storage then keeps all that was registered. -/
theorem finish?_eq_ok_iff {store later : Store} {id : StorageId} {calls : List Call}
    (opened : store.cell id = .opened (ofCalls calls)) {root finished : HeldShape} :
    store.finish? id root = some (.ok finished, later) ↔
      (indexedKeys calls).Nodup ∧ (∀ key ∈ referredKeys calls, key ∈ indexedKeys calls) ∧
        finished = .finished id root ∧ later = store.setCell id (.finished (indexed calls)) := by
  rw [finish?, opened?_of_cell opened, Option.map_some]
  constructor
  · intro answered
    cases accepted : (ofCalls calls).finish with
    | error error => simp [accepted] at answered
    | ok entries =>
      obtain ⟨distinct, complete, rfl⟩ := complete_of_finish_ofCalls accepted
      rw [accepted] at answered
      obtain ⟨same, later⟩ := Prod.mk.inj (Option.some.inj answered)
      exact ⟨distinct, complete, (Except.ok.inj same).symm, later.symm⟩
  · rintro ⟨distinct, complete, rfl, rfl⟩
    rw [finish_ofCalls_of_complete distinct complete]

/-- What finishing answers after any calls on a new registry, and what is missing after any number
of them. The first call that registers under a key once more decides, whatever is missing;
otherwise every key is in the way that a reference was made for and nothing was registered under,
each once and in strictly ascending order; and if there is none either, the storage keeps all that
was registered. -/
theorem finish_after_calls (store : Store) (calls : List Call) (root : HeldShape) :
    (∀ count, ∃ registry,
      (store.create.callAll store.next (calls.take count)).opened? store.next = some registry ∧
        registry.unresolved.Pairwise (· < ·) ∧
        ∀ key, key ∈ registry.unresolved ↔
          key ∈ referredKeys (calls.take count) ∧ key ∉ indexedKeys (calls.take count)) ∧
    ∃ answer later,
      (store.create.callAll store.next calls).finish? store.next root = some (answer, later) ∧
        ((∃ before key shape after, calls = before ++ .index key shape :: after ∧
            (indexedKeys before).Nodup ∧ key ∈ indexedKeys before ∧
            answer = .error (.duplicateKey key)) ∨
          ((indexedKeys calls).Nodup ∧ (∃ key ∈ referredKeys calls, key ∉ indexedKeys calls) ∧
            ∃ keys, answer = .error (.unresolvedKeys keys) ∧ keys.Pairwise (· < ·) ∧
              ∀ key, key ∈ keys ↔ key ∈ referredKeys calls ∧ key ∉ indexedKeys calls) ∨
          ((indexedKeys calls).Nodup ∧ (∀ key ∈ referredKeys calls, key ∈ indexedKeys calls) ∧
            answer = .ok (.finished store.next root) ∧
            later.cell store.next = .finished (indexed calls))) := by
  constructor
  · intro count
    have opened := opened?_of_cell (store.cell_callAll_create (calls.take count))
    exact ⟨_, opened, pairwise_lt_unresolved _, mem_unresolved_ofCalls_iff _⟩
  · have state := store.cell_callAll_create calls
    simp only [finish?, opened?_of_cell state, Option.map_some]
    refine ⟨_, _, rfl, ?_⟩
    by_cases distinct : (indexedKeys calls).Nodup
    · by_cases complete : ∀ key ∈ referredKeys calls, key ∈ indexedKeys calls
      · have created : store.next < (store.create.callAll store.next calls).cells.length :=
          lt_length_of_cell state nofun
        rw [finish_ofCalls_of_complete distinct complete]
        exact .inr (.inr ⟨distinct, complete, rfl, cell_setCell_same _ _ _ created⟩)
      · push Not at complete
        obtain ⟨key, referred, absent⟩ := complete
        rw [finish_ofCalls_of_missing distinct referred absent]
        exact .inr (.inl ⟨distinct, ⟨key, referred, absent⟩, _, rfl, pairwise_lt_unresolved _,
          mem_unresolved_ofCalls_iff calls⟩)
    · obtain ⟨before, key, shape, after, rfl, first, known⟩ := exists_first_repeated distinct
      rw [finish_ofCalls_of_repeated first known shape after]
      exact .inl ⟨before, key, shape, after, rfl, first, known, rfl⟩

/-- A key that was registered twice is reported, also where another one is missing. -/
example : (ofCalls [.refer "missing", .index "twice" (.of .null), .refer "twice",
    .index "twice" (.of .undefined)]).finish = .error (.duplicateKey "twice") := by
  cbv

end Store

end Conform

import Conform.Registry.Failure
import Conform.Shape.Held
/-!
# Registries

A registry takes shapes under keys and notes the keys that references were made for. The first
shape under a key stays; a later one is only noted as a duplicate. A registry can be finished when
no key was registered twice and every key that a reference was made for has a shape.
-/

namespace Conform

/-- Shapes by key, in the order of their registration. -/
abbrev Entries := List (String × HeldShape)

/-- What is found under a key is an entry. -/
theorem mem_of_lookup {α : Type} {entries : List (String × α)} {key : String} {value : α}
    (found : entries.lookup key = some value) : (key, value) ∈ entries := by
  obtain ⟨before, after, split, _⟩ := List.lookup_eq_some_iff.mp found
  rw [split]
  exact List.mem_append_right before List.mem_cons_self

/-- Where every key occurs once, what is found under it is what is listed with it. -/
theorem lookup_eq_some_iff_mem {α : Type} {entries : List (String × α)}
    (distinct : (entries.map Prod.fst).Nodup) {key : String} {value : α} :
    entries.lookup key = some value ↔ (key, value) ∈ entries := by
  constructor
  · exact mem_of_lookup
  · intro member
    induction entries with
    | nil => cases member
    | cons entry rest ih =>
      obtain ⟨absent, distinct⟩ := List.nodup_cons.mp distinct
      rcases List.mem_cons.mp member with rfl | later
      · exact List.lookup_cons_self
      · have different : key ≠ entry.1 := by
          rintro rfl
          exact absent (List.mem_map.mpr ⟨_, later, rfl⟩)
        rw [List.lookup_cons, beq_false_of_ne different]
        exact ih distinct later

/-- Something is found under a key exactly if it is one of the keys. -/
theorem isSome_lookup_iff {α : Type} {entries : List (String × α)} {key : String} :
    (entries.lookup key).isSome = true ↔ key ∈ entries.map Prod.fst := by
  rw [List.lookup_isSome_iff, List.mem_map]
  constructor
  · rintro ⟨entry, listed, same⟩
    exact ⟨entry, listed, (beq_iff_eq.mp same).symm⟩
  · rintro ⟨entry, listed, rfl⟩
    exact ⟨entry, listed, beq_self_eq_true _⟩

/-- A registry that is open. -/
structure Registry where
  /-- The shapes, each under its own key. -/
  entries : Entries := []
  /-- The keys that references were made for, in that order. -/
  referenced : List String := []
  /-- The keys that were registered again, in that order. -/
  duplicates : List String := []

namespace Registry

/-- The shape under a key. -/
def get? (registry : Registry) (key : String) : Option HeldShape := registry.entries.lookup key

/-- The keys, in the order of their first registration. -/
def keys (registry : Registry) : List String := registry.entries.map Prod.fst

/-- Whether a key has a shape. -/
def contains (registry : Registry) (key : String) : Bool := registry.keys.contains key

/-- The number of keys. -/
def size (registry : Registry) : Nat := registry.entries.length

/-- Whether no key has a shape. -/
def isEmpty (registry : Registry) : Bool := registry.entries.isEmpty

/-- Register a shape under a key. -/
def index (registry : Registry) (key : String) (shape : HeldShape) : Registry :=
  if registry.contains key then { registry with duplicates := registry.duplicates ++ [key] }
  else { registry with entries := registry.entries ++ [(key, shape)] }

/-- Note that a reference was made for a key. -/
def refer (registry : Registry) (key : String) : Registry :=
  { registry with referenced := registry.referenced ++ [key] }

/-- Registering adds its key at the end, unless the key is there. -/
theorem keys_index (registry : Registry) (key : String) (shape : HeldShape) :
    (registry.index key shape).keys =
      if key ∈ registry.keys then registry.keys else registry.keys ++ [key] := by
  by_cases known : key ∈ registry.keys
  · have found : registry.contains key = true := List.contains_iff_mem.mpr known
    rw [index, if_pos found, if_pos known]
    rfl
  · have absent : ¬ registry.contains key = true := fun found =>
      known (List.contains_iff_mem.mp found)
    rw [index, if_neg absent, if_neg known]
    exact List.map_append

/-- Noting a reference changes no shape. -/
theorem get?_refer (registry : Registry) (key other : String) :
    (registry.refer key).get? other = registry.get? other := rfl

/-- The keys that references were made for and that have no shape, ascending, each once. -/
def unresolved (registry : Registry) : List String :=
  ((registry.referenced.filter fun key => !registry.contains key).mergeSort
    (fun left right => decide (left ≤ right))).eraseReps

/-- The entries of the finished registry. A duplicate counts before missing keys. -/
def finish (registry : Registry) : Except RegistryError Entries :=
  match registry.duplicates with
  | key :: _ => .error (.duplicateKey key)
  | [] =>
    match registry.unresolved with
    | [] => .ok registry.entries
    | keys => .error (.unresolvedKeys keys)

end Registry

end Conform

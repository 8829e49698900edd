import Conform.Shape.Basic
/-!
# What shapes keep

A finished root keeps its storage, wherever it stands inside a shape. The storages that a shape
keeps are gathered once, when the shape is built from its parts, and are carried along with it. So
a part that many shapes share is never searched again, however often it occurs in a shape.
-/

namespace Conform

mutual

/-- The storages of the finished roots in a shape. -/
def Shape.roots : Shape → List StorageId
  | .kind _ => []
  | .literal _ => []
  | .object properties => Property.allRoots properties
  | .array item => Target.roots item
  | .union first rest => Target.roots first ++ Target.allRoots rest
  | .custom _ => []
  | .wrapped inner => Shape.roots inner
  | .finished storage root => storage :: Shape.roots root

/-- The storages of the finished roots in a target. -/
def Target.roots : Target → List StorageId
  | .shape shape => Shape.roots shape
  | .reference _ => []

/-- The storages of the finished roots in targets. -/
def Target.allRoots : List Target → List StorageId
  | [] => []
  | target :: rest => Target.roots target ++ Target.allRoots rest

/-- The storages of the finished roots in properties. -/
def Property.allRoots : List Property → List StorageId
  | [] => []
  | ⟨_, _, target⟩ :: rest => Target.roots target ++ Property.allRoots rest

end

/-- A value together with the storages that it keeps. -/
structure Held {α : Type} (roots : α → List StorageId) where
  /-- The value. -/
  value : α
  /-- The storages. -/
  keeps : List StorageId
  /-- They are those of the finished roots in the value. -/
  mem_keeps : ∀ id, id ∈ keeps ↔ id ∈ roots value

/-- A shape with the storages that it keeps. -/
abbrev HeldShape := Held Shape.roots

/-- A target with the storages that it keeps. -/
abbrev HeldTarget := Held Target.roots

/-- Targets with the storages that they keep. -/
abbrev HeldTargets := Held Target.allRoots

/-- Properties with the storages that they keep. -/
abbrev HeldProperties := Held Property.allRoots

namespace Held

variable {α β γ : Type} {rootsA : α → List StorageId} {rootsB : β → List StorageId}
  {rootsC : γ → List StorageId}

/-- A value whose finished roots are gathered on the spot. -/
def of (value : α) : Held rootsA := ⟨value, rootsA value, fun _ => Iff.rfl⟩

/-- The storages of two lists. -/
def merge (left right : List StorageId) : List StorageId := left.foldr List.insert right

/-- Merging loses no storage and adds none. -/
theorem mem_merge (left right : List StorageId) (id : StorageId) :
    id ∈ merge left right ↔ id ∈ left ∨ id ∈ right := by
  induction left with
  | nil => simp [merge]
  | cons first rest hypothesis =>
    rw [merge, List.foldr_cons, List.mem_insert_iff, ← merge, hypothesis, List.mem_cons, or_assoc]

/-- What is made of one value and has the same finished roots. -/
def map (make : α → β) (same : ∀ value, rootsB (make value) = rootsA value) (held : Held rootsA) :
    Held rootsB :=
  ⟨make held.value, held.keeps, fun id => by rw [same, held.mem_keeps]⟩

/-- What is made of two values and has the finished roots of both. -/
def map₂ (make : α → β → γ)
    (both : ∀ left right, rootsC (make left right) = rootsA left ++ rootsB right)
    (left : Held rootsA) (right : Held rootsB) : Held rootsC :=
  ⟨make left.value right.value, merge left.keeps right.keeps, fun id => by
    rw [both, mem_merge, List.mem_append, left.mem_keeps, right.mem_keeps]⟩

end Held

namespace HeldShape

/-- A shape as a target. -/
def target (shape : HeldShape) : HeldTarget := shape.map Target.shape fun _ => rfl

/-- The object with properties. -/
def object (properties : HeldProperties) : HeldShape := properties.map Shape.object fun _ => rfl

/-- The array of items. -/
def array (item : HeldTarget) : HeldShape := item.map Shape.array fun _ => rfl

/-- The union of alternatives; there is none of an empty list. -/
def union? : HeldTargets → Option HeldShape
  | ⟨[], _, _⟩ => none
  | ⟨first :: rest, keeps, mem_keeps⟩ => some ⟨.union first rest, keeps, mem_keeps⟩

/-- An absent candidate, `null`, or what the target takes. -/
def optional (target : HeldTarget) : HeldShape :=
  target.map Shape.optional fun _ => by
    simp [Shape.optional, Shape.undefined, Shape.null, Shape.roots, Target.roots, Target.allRoots]

/-- What the shape inside takes. -/
def wrapped (inner : HeldShape) : HeldShape := inner.map Shape.wrapped fun _ => rfl

/-- The root of the finished registry of a storage. -/
def finished (storage : StorageId) (root : HeldShape) : HeldShape :=
  ⟨.finished storage root.value, root.keeps.insert storage, fun id => by
    rw [List.mem_insert_iff, root.mem_keeps, Shape.roots, List.mem_cons]⟩

end HeldShape

namespace HeldTargets

/-- One more target in front. -/
def cons (first : HeldTarget) (rest : HeldTargets) : HeldTargets :=
  first.map₂ List.cons (fun _ _ => rfl) rest

end HeldTargets

namespace HeldProperties

/-- One more property in front. -/
def cons (name : String) (accessor : Accessor) (target : HeldTarget) (rest : HeldProperties) :
    HeldProperties :=
  target.map₂ (fun target rest => ⟨name, accessor, target⟩ :: rest) (fun _ _ => rfl) rest

end HeldProperties

end Conform

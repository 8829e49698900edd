import Conform.Outcome
import Conform.Path
/-!
# Shapes

A shape says what candidates conform. Where a shape has parts, a part is a target: another shape,
or a reference to a key of a storage, which is looked up only when a check gets there. So a finite
shape describes recursive data once its references are resolved.
-/

namespace Conform

/-- Which storage an entry is in. -/
abbrev StorageId := Nat

/-- A deferred reference to the shape under a key. -/
structure Reference where
  /-- The storage that has the key, or will have it. -/
  storage : StorageId
  /-- The key. -/
  key : String
deriving DecidableEq

mutual

/-- What a candidate has to be. -/
inductive Shape where
  /-- A candidate of a kind. -/
  | kind (expected : Kind)
  /-- A candidate with a value. -/
  | literal (expected : Literal)
  /-- An object with properties; members that no property selects are free. -/
  | object (properties : List Property)
  /-- An array of items. -/
  | array (item : Target)
  /-- A candidate that some alternative takes; there is one at least. -/
  | union (first : Target) (rest : List Target)
  /-- A candidate that a function judges. -/
  | custom (judge : Option Json → Outcome)
  /-- A candidate that the shape inside takes. -/
  | wrapped (inner : Shape)
  /-- The root of a finished registry, which keeps the storage of the registry. -/
  | finished (storage : StorageId) (root : Shape)

/-- A part of a shape. -/
inductive Target where
  /-- A shape that stands right there. -/
  | shape (shape : Shape)
  /-- A reference, followed when a check gets to it. -/
  | reference (reference : Reference)

/-- A named property of an object. -/
structure Property where
  /-- The name that reports use. -/
  name : String
  /-- The way from the object to the value. -/
  accessor : Accessor
  /-- What the value has to be, also where it is absent. -/
  target : Target

end

/-- The property that is the member of its name. -/
def Property.field (name : String) (target : Target) : Property :=
  ⟨name, .ofSteps [.field name], target⟩

namespace Shape

/-- The absent candidate. -/
def undefined : Shape := .literal .undefined

/-- The value `null`. -/
def null : Shape := .literal (.json .null)

/-- An absent candidate, `null`, or what the target takes. -/
def optional (target : Target) : Shape :=
  .union (.shape undefined) [.shape null, target]

end Shape

/-- A shape that has no parts. -/
inductive Leaf where
  /-- A candidate of a kind. -/
  | kind (expected : Kind)
  /-- A candidate with a value. -/
  | literal (expected : Literal)
  /-- A candidate that a function judges. -/
  | custom (judge : Option Json → Outcome)

namespace Leaf

/-- The leaf as a shape. -/
def shape : Leaf → Shape
  | .kind expected => .kind expected
  | .literal expected => .literal expected
  | .custom judge => .custom judge

/-- Every number. -/
def number : Leaf := .kind .number

/-- Every string. -/
def string : Leaf := .kind .string

/-- The truth values. -/
def boolean : Leaf := .kind .boolean

/-- The absent candidate. -/
def undefined : Leaf := .literal .undefined

/-- A judge that gives one outcome to every candidate. -/
def constant (outcome : Outcome) : Leaf := .custom fun _ => outcome

/-- Whether a candidate is an even integer that fits a signed 64-bit word. -/
def isEvenInteger : Option Json → Bool
  | some (.number (.integer value)) => value.fitsSigned && value.val % 2 == 0
  | _ => false

/-- The even integers of a signed 64-bit word. -/
def even : Leaf :=
  .custom fun candidate =>
    if isEvenInteger candidate then .valid else .wrongKind .number (Kind.of candidate)

end Leaf

end Conform

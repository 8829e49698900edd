import Conform.Json.Basic
/-!
# Kinds of values

Every candidate has exactly one kind, the absent one included.
-/

namespace Conform

/-- The kind of a candidate. -/
inductive Kind where
  /-- Numbers of either form. -/
  | number
  /-- Strings. -/
  | string
  /-- The truth values. -/
  | boolean
  /-- The value `null`. -/
  | null
  /-- Objects. -/
  | object
  /-- Arrays. -/
  | array
  /-- The kind of an absent candidate. -/
  | undefined
deriving DecidableEq

namespace Kind

/-- The kind of a value that is present. -/
def ofJson : Json → Kind
  | .null => .null
  | .bool _ => .boolean
  | .number _ => .number
  | .string _ => .string
  | .array _ => .array
  | .object _ => .object

/-- The kind of a candidate. -/
def of : Option Json → Kind
  | none => .undefined
  | some value => ofJson value

/-- The candidates of the kind of objects are the objects. -/
theorem of_eq_object_iff {candidate : Option Json} :
    of candidate = .object ↔ ∃ members, candidate = some (.object members) := by
  rcases candidate with _ | ⟨_ | _ | _ | _ | _ | _⟩ <;> simp [of, ofJson]

/-- The candidates of the kind of arrays are the arrays. -/
theorem of_eq_array_iff {candidate : Option Json} :
    of candidate = .array ↔ ∃ elements, candidate = some (.array elements) := by
  rcases candidate with _ | ⟨_ | _ | _ | _ | _ | _⟩ <;> simp [of, ofJson]

/-- The name that reports use. -/
def name : Kind → String
  | .number => "number"
  | .string => "string"
  | .boolean => "boolean"
  | .null => "null"
  | .object => "object"
  | .array => "Array"
  | .undefined => "undefined"

/-- Every kind, in the order of their declaration. -/
def all : List Kind := [.number, .string, .boolean, .null, .object, .array, .undefined]

/-- The kind of a name. -/
def ofName? (name : String) : Option Kind := all.find? (·.name == name)

/-- A kind is read back from its name. -/
theorem ofName?_name (kind : Kind) : ofName? kind.name = some kind := by
  cases kind <;> decide

end Kind

end Conform

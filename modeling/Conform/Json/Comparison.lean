import Conform.Json.Basic
/-!
# Comparing JSON values

Two relations compare values of the same form, and they differ at numbers only. `Json.same` takes
numbers of equal value for the same, whether they are integers or binary64 numbers, except that
negative zero is the same only as itself. `==` keeps integers and binary64 numbers apart and takes
the two zeros for equal. `Json.same` finds the members of the other object by key, `==` walks two
objects in step, which is the same thing for objects in key order.
-/

namespace Conform.Json

mutual

/-- The same value, numbers by value. -/
def same : Json → Json → Bool
  | .null, .null => true
  | .bool left, .bool right => left == right
  | .number left, .number right => left.same right
  | .string left, .string right => left == right
  | .array left, .array right => sameElements left right
  | .object left, .object right => left.length == right.length && sameMembers left right
  | _, _ => false

/-- The same elements in the same order. -/
def sameElements : List Json → List Json → Bool
  | [], [] => true
  | left :: lefts, right :: rights => same left right && sameElements lefts rights
  | _, _ => false

/-- Each member has its like among the others. -/
def sameMembers : List (String × Json) → List (String × Json) → Bool
  | [], _ => true
  | (key, value) :: rest, others =>
    (match others.lookup key with
      | some other => same value other
      | none => false) && sameMembers rest others

end

mutual

/-- Equal values, numbers in the same form. -/
def beq : Json → Json → Bool
  | .null, .null => true
  | .bool left, .bool right => left == right
  | .number left, .number right => left == right
  | .string left, .string right => left == right
  | .array left, .array right => beqElements left right
  | .object left, .object right => beqMembers left right
  | _, _ => false

/-- Equal elements in the same order. -/
def beqElements : List Json → List Json → Bool
  | [], [] => true
  | left :: lefts, right :: rights => beq left right && beqElements lefts rights
  | _, _ => false

/-- Equal keys with equal values, both sides in key order. -/
def beqMembers : List (String × Json) → List (String × Json) → Bool
  | [], [] => true
  | (key, left) :: lefts, (other, right) :: rights =>
    key == other && beq left right && beqMembers lefts rights
  | _, _ => false

end

instance : BEq Json := ⟨beq⟩

end Conform.Json

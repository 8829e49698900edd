import Conform.Json.Comparison
import Conform.Json.Text
import Conform.Kind
/-!
# Literals

A literal is what a shape may ask for by value: the absent value, a JSON value, or a number that
JSON cannot write. A literal accepts the candidates with the same value; a number that JSON cannot
write accepts none. `==` on literals is another relation: it follows `==` on values, and the
undefined number is not even equal to itself.
-/

namespace Conform

/-- A number that no JSON text denotes. -/
inductive NonFinite where
  /-- The undefined number. -/
  | nan
  /-- Positive infinity. -/
  | infinity
  /-- Negative infinity. -/
  | negativeInfinity

namespace NonFinite

/-- The text of the number. -/
def text : NonFinite → String
  | .nan => "NaN"
  | .infinity => "Infinity"
  | .negativeInfinity => "-Infinity"

/-- Numeric equality; the undefined number equals nothing. -/
def beq : NonFinite → NonFinite → Bool
  | .infinity, .infinity => true
  | .negativeInfinity, .negativeInfinity => true
  | _, _ => false

instance : BEq NonFinite := ⟨beq⟩

end NonFinite

/-- A value that a shape may ask for. -/
inductive Literal where
  /-- The absent value. -/
  | undefined
  /-- A JSON value. -/
  | json (value : Json)
  /-- A number that JSON cannot write. -/
  | nonFinite (value : NonFinite)

namespace Literal

/-- The literal of a candidate. -/
def of : Option Json → Literal
  | none => .undefined
  | some value => .json value

/-- The kind of the value. -/
def kind : Literal → Kind
  | .undefined => .undefined
  | .json value => .ofJson value
  | .nonFinite _ => .number

/-- The text of the value; a string stands as it is, without quotes. -/
def text : Literal → String
  | .undefined => "undefined"
  | .json (.string value) => value
  | .json value => value.text
  | .nonFinite value => value.text

/-- Whether a candidate has the value. -/
def accepts : Literal → Option Json → Bool
  | .undefined, none => true
  | .json expected, some actual => expected.same actual
  | _, _ => false

/-- Equal values. -/
def beq : Literal → Literal → Bool
  | .undefined, .undefined => true
  | .json left, .json right => left == right
  | .nonFinite left, .nonFinite right => left == right
  | _, _ => false

instance : BEq Literal := ⟨beq⟩

end Literal

end Conform

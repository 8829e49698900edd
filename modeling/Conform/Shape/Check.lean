import Conform.Registry.Failure
import Conform.Shape.Basic
/-!
# Checking a candidate against a shape

`Shape.check` follows the structure of a shape and leaves it to a parameter to follow references.
Every mismatch that a check reaches is kept. An object is asked for all its properties in order,
an array for all its elements, and a union for its alternatives up to the first that is valid. A
reference is followed only when a check gets to it: not in a candidate of another kind, not for
the items of an empty array, not after a valid alternative, but also for an absent property.
-/

namespace Conform

/-- Why a check ends without an outcome. -/
inductive Interruption where
  /-- A reference could not be resolved. -/
  | unresolved (error : RegistryError)
  /-- References led to references more often than allowed. -/
  | exhausted
deriving DecidableEq

/-- The text of an interruption. -/
def Interruption.message : Interruption → String
  | .unresolved error => error.message
  | .exhausted => "references lead to references without end"

/-- What a check ends with. -/
abbrev Checked (α : Type) := Except Interruption α

/-- A way to check candidates against what references stand for. -/
abbrev Follow := Reference → Option Json → Checked Outcome

namespace Outcome

/-- The outcome of an object with the given mismatches in its properties. -/
def ofProperties : List (String × Outcome) → Outcome
  | [] => .valid
  | properties => .inProperties properties

/-- The outcome of an array with the given mismatches in its items. -/
def ofItems : List (Nat × Outcome) → Outcome
  | [] => .valid
  | items => .inItems items

/-- The mismatches that one more labelled outcome adds in front of others. -/
def addFailure {α : Type} (label : α) (outcome : Outcome) (rest : List (α × Outcome)) :
    List (α × Outcome) :=
  if outcome.isValid then rest else (label, outcome) :: rest

end Outcome

/-- The mismatches of elements, each with its index, where the first element has the given one. -/
def itemFailures (check : Json → Checked Outcome) :
    Nat → List Json → Checked (List (Nat × Outcome))
  | _, [] => .ok []
  | position, element :: rest => do
    let outcome ← check element
    let failures ← itemFailures check (position + 1) rest
    return Outcome.addFailure position outcome failures

mutual

/-- Check a candidate against a shape. -/
def Shape.check (follow : Follow) : Shape → Option Json → Checked Outcome
  | .kind expected, candidate =>
    .ok (if Kind.of candidate = expected then .valid else .wrongKind expected (Kind.of candidate))
  | .literal expected, candidate =>
    .ok (if expected.accepts candidate then .valid else .wrongValue expected (Literal.of candidate))
  | .object properties, some (.object members) => do
    let failures ← Property.failures follow properties (.object members)
    return .ofProperties failures
  | .object _, candidate => .ok (.wrongKind .object (Kind.of candidate))
  | .array item, some (.array elements) => do
    let check (element : Json) := Target.check follow item (some element)
    let failures ← itemFailures check 0 elements
    return .ofItems failures
  | .array _, candidate => .ok (.wrongKind .array (Kind.of candidate))
  | .union first rest, candidate => do
    let outcome ← Target.check follow first candidate
    if outcome.isValid then return .valid
    match ← Target.failures? follow rest candidate with
    | none => return .valid
    | some failures => return .inAlternatives (outcome :: failures)
  | .custom judge, candidate => .ok (judge candidate)
  | .wrapped inner, candidate => Shape.check follow inner candidate
  | .finished _ root, candidate => Shape.check follow root candidate

/-- Check a candidate against a target. -/
def Target.check (follow : Follow) : Target → Option Json → Checked Outcome
  | .shape shape, candidate => Shape.check follow shape candidate
  | .reference reference, candidate => follow reference candidate

/-- The mismatches of alternatives, or nothing where one of them is valid. -/
def Target.failures? (follow : Follow) :
    List Target → Option Json → Checked (Option (List Outcome))
  | [], _ => .ok (some [])
  | target :: rest, candidate => do
    let outcome ← Target.check follow target candidate
    if outcome.isValid then return none
    let failures ← Target.failures? follow rest candidate
    return failures.map (outcome :: ·)

/-- The mismatches of properties, each with its name, in the value that they select from. -/
def Property.failures (follow : Follow) :
    List Property → Json → Checked (List (String × Outcome))
  | [], _ => .ok []
  | ⟨name, accessor, target⟩ :: rest, value => do
    let outcome ← Target.check follow target (accessor.select? value)
    let failures ← Property.failures follow rest value
    return Outcome.addFailure name outcome failures

end

end Conform

import Conform.Json.Basic
/-!
# Paths into a value

A step selects an object member or an array element, and a path is a named root with the steps
taken from it. `Json.at?` follows steps into a value; where a step selects nothing, the result is
absent. An accessor selects some part of a value, by steps that may depend on the value.
-/

namespace Conform

/-- One step into a value. -/
inductive Step where
  /-- To the object member of a name. -/
  | field (name : String)
  /-- To the array element at an index. -/
  | index (position : Nat)
deriving DecidableEq

namespace Step

/-- The text of a step, as it follows the text of the path before it. -/
def text : Step → String
  | .field name => "." ++ name
  | .index position => "[" ++ toString position ++ "]"

end Step

namespace Json

/-- What a step selects. -/
def select? (value : Json) : Step → Option Json
  | .field name => value.member? name
  | .index position => value.element? position

/-- What steps select, one after the other; without a step that is the value itself. -/
def at? : List Step → Json → Option Json
  | [], value => some value
  | step :: rest, value => (value.select? step).bind (at? rest)

/-- Steps are followed one part after the other. -/
theorem at?_append (value : Json) (first second : List Step) :
    value.at? (first ++ second) = (value.at? first).bind (at? second) := by
  induction first generalizing value with
  | nil => rfl
  | cons step rest ih =>
    simp only [List.cons_append, at?]
    cases value.select? step with
    | none => rfl
    | some selected => exact ih selected

end Json

/-- A way from a value to a part of it: an accessor extracts a member of a candidate, so by its
contract it selects nothing that does not stand in the value. The steps may depend on the value. -/
structure Accessor where
  /-- The selected part; it may be absent. -/
  select? : Json → Option Json
  /-- The contract of accessors: what is selected stands in the value, after some steps. -/
  inside : ∀ value part, select? value = some part → ∃ steps, value.at? steps = some part

/-- The accessor that follows the same steps in every value; without a step it selects the value. -/
def Accessor.ofSteps (steps : List Step) : Accessor where
  select? := Json.at? steps
  inside _ _ selected := ⟨steps, selected⟩

instance : Coe (List Step) Accessor := ⟨Accessor.ofSteps⟩

/-- A place in a value: the name of the value, and the steps to the place. -/
structure Path where
  /-- The name of the value. -/
  root : String
  /-- The steps from the value to the place. -/
  steps : List Step
deriving DecidableEq

namespace Path

/-- The path to the value itself. -/
def ofRoot (root : String) : Path := ⟨root, []⟩

/-- The path one step further. -/
def push (path : Path) (step : Step) : Path := ⟨path.root, path.steps ++ [step]⟩

/-- The text of steps. -/
def stepsText : List Step → String
  | [] => ""
  | step :: rest => step.text ++ stepsText rest

/-- The text of a path. -/
def text (path : Path) : String := path.root ++ stepsText path.steps

end Path

end Conform

import Conform.Proofs.Congruence
/-!
# The parts of a value

Steps select the parts of a value: the elements of arrays and the members of objects, at any depth.
A part selected by one step is less deep than the value, so a fact about values may be proved by
induction on parts, and a property that all parts have passes from a value to its parts and back.
-/

namespace Conform.Json

/-- What holds of a value whenever it holds of the parts right in it holds of every value. -/
theorem inductionOnParts {motive : Json → Prop}
    (step : ∀ whole, (∀ step part, whole.select? step = some part → motive part) → motive whole)
    (value : Json) : motive value :=
  step value fun _ part _ => inductionOnParts step part
termination_by value.depth
decreasing_by exact depth_lt_of_select? ‹_›

/-- A step leads to each element of an array. -/
theorem exists_select?_of_mem {elements : List Json} {element : Json}
    (member : element ∈ elements) :
    ∃ step, (Json.array elements).select? step = some element := by
  obtain ⟨position, found⟩ := List.getElem?_of_mem member
  exact ⟨.index position, found⟩

/-- A value and all parts of it, at any depth, have a property. -/
def Throughout (property : Json → Prop) (value : Json) : Prop :=
  ∀ steps part, value.at? steps = some part → property part

namespace Throughout

variable {property : Json → Prop} {value : Json}

/-- The value itself has the property. -/
theorem here (all : value.Throughout property) : property value := all [] value rfl

/-- What holds throughout a value holds throughout its parts. -/
theorem part (all : value.Throughout property) {step : Step} {part : Json}
    (selected : value.select? step = some part) : part.Throughout property := by
  intro steps inner reached
  refine all (step :: steps) inner ?_
  rw [at?, selected]
  exact reached

/-- What holds throughout an array holds throughout its elements. -/
theorem element {elements : List Json} (all : (Json.array elements).Throughout property)
    {element : Json} (member : element ∈ elements) : element.Throughout property := by
  obtain ⟨step, selected⟩ := exists_select?_of_mem member
  exact all.part selected

/-- What holds throughout an object holds throughout what is found under its keys. -/
theorem member {members : List (String × Json)} (all : (Json.object members).Throughout property)
    {key : String} {value : Json} (found : members.lookup key = some value) :
    value.Throughout property :=
  all.part (show (Json.object members).select? (.field key) = some value from found)

/-- What holds of a value and throughout its parts holds throughout the value. -/
theorem of_parts (here : property value)
    (parts : ∀ step part, value.select? step = some part → part.Throughout property) :
    value.Throughout property := by
  intro steps part reached
  cases steps with
  | nil =>
    obtain rfl := Option.some.inj reached
    exact here
  | cons step rest =>
    obtain ⟨middle, selected, further⟩ := Option.bind_eq_some_iff.mp reached
    exact parts step middle selected rest part further

/-- What holds of an array and throughout its elements holds throughout the array. -/
theorem array {elements : List Json} (here : property (.array elements))
    (each : ∀ element ∈ elements, element.Throughout property) :
    (Json.array elements).Throughout property := by
  refine of_parts here fun step part selected => ?_
  cases step with
  | field name => cases selected
  | index position => exact each part (List.mem_of_getElem? selected)

/-- What holds of an object and throughout its members holds throughout the object. -/
theorem object {members : List (String × Json)} (here : property (.object members))
    (each : ∀ member ∈ members, member.2.Throughout property) :
    (Json.object members).Throughout property := by
  refine of_parts here fun step part selected => ?_
  cases step with
  | field name => exact each (name, part) (mem_of_lookup selected)
  | index position => cases selected

end Throughout

end Conform.Json

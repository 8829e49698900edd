import Conform.Proofs.Graph
import Conform.Store.Evaluation
/-!
# Checks that ask alike

A check asks its follower about references, and about nothing but the references of its shape at
the candidate or at something smaller; `Target.Asks` says which ones at what. So two checks of one
shape end alike whenever their followers answer those questions alike. What "alike" means is left
open: any relation between results will do that passes through the sequencing of checks.
-/

namespace Conform

open Relation

namespace Json

/-- An element of an array is less deep than the array. -/
theorem depth_lt_of_mem {elements : List Json} {element : Json} (member : element ∈ elements) :
    element.depth < (Json.array elements).depth := by
  have bound : element.depth ≤ elementsDepth elements := by
    induction elements with
    | nil => cases member
    | cons first rest ih =>
      simp only [elementsDepth]
      rcases List.mem_cons.mp member with rfl | later
      · exact Nat.le_max_left _ _
      · exact Nat.le_trans (ih later) (Nat.le_max_right _ _)
  simp only [depth]
  omega

/-- A member of an object is less deep than the object. -/
theorem depth_lt_of_lookup {members : List (String × Json)} {name : String} {value : Json}
    (found : members.lookup name = some value) : value.depth < (Json.object members).depth := by
  have bound : value.depth ≤ membersDepth members := by
    induction members with
    | nil => cases found
    | cons member rest ih =>
      obtain ⟨key, first⟩ := member
      simp only [membersDepth]
      rw [List.lookup_cons] at found
      split at found
      · cases found
        exact Nat.le_max_left _ _
      · exact Nat.le_trans (ih found) (Nat.le_max_right _ _)
  simp only [depth]
  omega

/-- A step leads to something less deep. -/
theorem depth_lt_of_select? {value part : Json} {step : Step}
    (selected : value.select? step = some part) : part.depth < value.depth := by
  cases step with
  | field name =>
    cases value with
    | object members => exact depth_lt_of_lookup selected
    | _ => cases selected
  | index position =>
    cases value with
    | array elements => exact depth_lt_of_mem (List.mem_of_getElem? selected)
    | _ => cases selected

/-- Steps lead to the value itself or to something less deep. -/
theorem eq_or_depth_lt_of_at? {value part : Json} {steps : List Step}
    (selected : value.at? steps = some part) : part = value ∨ part.depth < value.depth := by
  induction steps generalizing value with
  | nil => exact .inl (Option.some.inj selected).symm
  | cons step rest ih =>
    obtain ⟨middle, stepped, rested⟩ := Option.bind_eq_some_iff.mp selected
    have shallower := depth_lt_of_select? stepped
    rcases ih rested with rfl | deeper
    · exact .inr shallower
    · exact .inr (by omega)

/-- Every value has some depth. -/
theorem depth_pos (value : Json) : 0 < value.depth := by
  cases value <;> simp [depth]

end Json

/-- A candidate is another one, or less deep than it. -/
def Within (part candidate : Option Json) : Prop :=
  part = candidate ∨ Json.depth? part < Json.depth? candidate

namespace Within

/-- A candidate is within itself. -/
theorem refl (candidate : Option Json) : Within candidate candidate := .inl rfl

/-- Candidates within a candidate that is within another one are within that one. -/
theorem trans {first second third : Option Json} (inner : Within first second)
    (outer : Within second third) : Within first third := by
  rcases inner with rfl | inner
  · exact outer
  · rcases outer with rfl | outer
    · exact .inr inner
    · exact .inr (Nat.lt_trans inner outer)

/-- What an accessor selects is within the value. -/
theorem select? (accessor : Accessor) (value : Json) :
    Within (accessor.select? value) (some value) := by
  cases selected : accessor.select? value with
  | none => exact .inr value.depth_pos
  | some part =>
    obtain ⟨steps, reached⟩ := accessor.inside value part selected
    rcases Json.eq_or_depth_lt_of_at? reached with rfl | shallower
    · exact .inl rfl
    · exact .inr shallower

/-- An element is within its array. -/
theorem element {elements : List Json} {element : Json} (member : element ∈ elements) :
    Within (some element) (some (.array elements)) := .inr (Json.depth_lt_of_mem member)

end Within

/-- A check of a target at a candidate may ask its follower about a reference at some part of the
candidate. -/
inductive Target.Asks : Target → Option Json → Reference → Option Json → Prop
  /-- The target is the reference. -/
  | reference {reference : Reference} {candidate : Option Json} :
      Asks (.reference reference) candidate reference candidate
  /-- The check of a property asks about it. -/
  | property {properties : List Property} {property : Property} {members : List (String × Json)}
      {reference : Reference} {part : Option Json} (member : property ∈ properties)
      (asks : Asks property.target (property.accessor.select? (.object members)) reference part) :
      Asks (.shape (.object properties)) (some (.object members)) reference part
  /-- The check of an element asks about it. -/
  | item {item : Target} {elements : List Json} {element : Json} {reference : Reference}
      {part : Option Json} (member : element ∈ elements)
      (asks : Asks item (some element) reference part) :
      Asks (.shape (.array item)) (some (.array elements)) reference part
  /-- The check of an alternative asks about it. -/
  | alternative {first alternative : Target} {rest : List Target} {candidate : Option Json}
      {reference : Reference} {part : Option Json} (member : alternative ∈ first :: rest)
      (asks : Asks alternative candidate reference part) :
      Asks (.shape (.union first rest)) candidate reference part
  /-- The check of the shape inside asks about it. -/
  | inner {inner : Shape} {candidate : Option Json} {reference : Reference} {part : Option Json}
      (asks : Asks (.shape inner) candidate reference part) :
      Asks (.shape (.wrapped inner)) candidate reference part
  /-- The check of the root asks about it. -/
  | root {storage : StorageId} {root : Shape} {candidate : Option Json} {reference : Reference}
      {part : Option Json} (asks : Asks (.shape root) candidate reference part) :
      Asks (.shape (.finished storage root)) candidate reference part

namespace Target.Asks

variable {target : Target} {candidate : Option Json} {reference : Reference} {part : Option Json}

/-- A check asks about references that stand in the target. -/
theorem contains (asks : target.Asks candidate reference part) :
    target.Contains (.reference reference) := by
  induction asks with
  | reference => exact .refl
  | property member _ ih => exact .head (.property member) ih
  | item _ _ ih => exact .head .item ih
  | alternative member _ ih => exact .head (.alternative member) ih
  | inner _ ih => exact .head .inner ih
  | root _ ih => exact .head .root ih

/-- A check asks at the candidate or at something less deep. -/
theorem within (asks : target.Asks candidate reference part) : Within part candidate := by
  induction asks with
  | @reference _ candidate => exact .refl candidate
  | @property _ property members _ _ _ _ ih => exact ih.trans (.select? property.accessor _)
  | item member _ ih => exact ih.trans (.element member)
  | alternative _ _ ih => exact ih
  | inner _ ih => exact ih
  | root _ ih => exact ih

end Target.Asks

/-- A relation between results that the sequencing of checks keeps. -/
structure Congruence where
  /-- The relation. -/
  Related : {α : Type} → Checked α → Checked α → Prop
  /-- An outcome is related to itself. -/
  ok : ∀ {α : Type} (value : α), Related (.ok value) (.ok value)
  /-- Related checks that go on in related ways are related. -/
  bind : ∀ {α β : Type} {first second : Checked α} {firstly secondly : α → Checked β},
    Related first second →
    (∀ value, first = .ok value → Related (firstly value) (secondly value)) →
    Related (first >>= firstly) (second >>= secondly)

namespace Congruence

/-- Outcomes stay, and so do the interruptions of some kind. -/
def keeping (kept : Interruption → Prop) : Congruence where
  Related first second := match first with
    | .ok value => second = .ok value
    | .error cause => kept cause → second = .error cause
  ok _ := rfl
  bind := by
    intro α β first second firstly secondly related onward
    cases first with
    | ok value =>
      cases related
      exact onward value rfl
    | error cause =>
      intro isKept
      cases related isKept
      rfl

/-- Every interruption of the first result is allowed; the second result does not matter. -/
def allowing (allowed : Interruption → Prop) : Congruence where
  Related first _ := ∀ cause, first = .error cause → allowed cause
  ok _ _ failed := nomatch failed
  bind := by
    intro α β first second firstly secondly related onward cause failed
    cases first with
    | ok value => exact onward value rfl cause failed
    | error other =>
      cases failed
      exact related cause rfl

variable (congruence : Congruence) {first second : Follow}

/-- Checks of all items are related if those of each one are. -/
theorem itemFailures_related {left right : Json → Checked Outcome} (elements : List Json)
    (related : ∀ element ∈ elements, congruence.Related (left element) (right element))
    (position : Nat) :
    congruence.Related (itemFailures left position elements)
      (itemFailures right position elements) := by
  induction elements generalizing position with
  | nil => exact congruence.ok _
  | cons element rest ih =>
    apply congruence.bind (related element List.mem_cons_self)
    intro outcome _
    apply congruence.bind (ih (fun other member => related other (.tail _ member)) _)
    exact fun failures _ => congruence.ok _

/-- Checks of all properties are related if those of each one are. -/
theorem failures_related (properties : List Property) (value : Json)
    (related : ∀ property ∈ properties, congruence.Related
      (property.target.check first (property.accessor.select? value))
      (property.target.check second (property.accessor.select? value))) :
    congruence.Related (Property.failures first properties value)
      (Property.failures second properties value) := by
  induction properties with
  | nil => exact congruence.ok _
  | cons property rest ih =>
    have head := related property List.mem_cons_self
    cases property
    apply congruence.bind head
    intro outcome _
    apply congruence.bind (ih fun other member => related other (.tail _ member))
    exact fun failures _ => congruence.ok _

/-- Checks of alternatives up to the first valid one are related if those of each one are. -/
theorem failures?_related (targets : List Target) (candidate : Option Json)
    (related : ∀ target ∈ targets,
      congruence.Related (target.check first candidate) (target.check second candidate)) :
    congruence.Related (Target.failures? first targets candidate)
      (Target.failures? second targets candidate) := by
  induction targets with
  | nil => exact congruence.ok _
  | cons target rest ih =>
    apply congruence.bind (related target List.mem_cons_self)
    intro outcome _
    cases outcome.isValid with
    | true => exact congruence.ok _
    | false =>
      apply congruence.bind (ih fun other member => related other (.tail _ member))
      exact fun failures _ => congruence.ok _

/-- Two checks of one target are related if the answers of their followers to what the check may ask
are. -/
theorem check_related_of_asks (target : Target) (candidate : Option Json)
    (related : ∀ reference part, target.Asks candidate reference part →
      congruence.Related (first reference part) (second reference part)) :
    congruence.Related (target.check first candidate) (target.check second candidate) := by
  induction target using Target.inductionOnParts generalizing candidate with
  | step whole ih =>
    match whole with
    | .reference reference => exact related reference candidate .reference
    | .shape (.kind _) => exact congruence.ok _
    | .shape (.literal _) => exact congruence.ok _
    | .shape (.custom _) => exact congruence.ok _
    | .shape (.wrapped inner) =>
      exact ih _ .inner candidate fun reference part asks => related reference part (.inner asks)
    | .shape (.finished _ root) =>
      exact ih _ .root candidate fun reference part asks => related reference part (.root asks)
    | .shape (.object properties) =>
      match candidate with
      | some (.object members) =>
        refine congruence.bind (congruence.failures_related properties _ ?_) fun failures _ =>
          congruence.ok _
        exact fun property member => ih _ (.property member) _ fun reference part asks =>
          related reference part (.property member asks)
      | none | some .null | some (.bool _) | some (.number _) | some (.string _)
      | some (.array _) => exact congruence.ok _
    | .shape (.array item) =>
      match candidate with
      | some (.array elements) =>
        refine congruence.bind (congruence.itemFailures_related elements ?_ 0) fun failures _ =>
          congruence.ok _
        exact fun element member => ih _ .item _ fun reference part asks =>
          related reference part (.item member asks)
      | none | some .null | some (.bool _) | some (.number _) | some (.string _)
      | some (.object _) => exact congruence.ok _
    | .shape (.union choice rest) =>
      have each (alternative : Target) (member : alternative ∈ choice :: rest) :
          congruence.Related (alternative.check first candidate)
            (alternative.check second candidate) :=
        ih _ (.alternative member) candidate fun reference part asks =>
          related reference part (.alternative member asks)
      apply congruence.bind (each choice List.mem_cons_self)
      intro outcome _
      cases outcome.isValid with
      | true => exact congruence.ok _
      | false =>
        refine congruence.bind (congruence.failures?_related rest candidate ?_) ?_
        · exact fun target member => each target (.tail _ member)
        · intro failures _
          cases failures <;> exact congruence.ok _

/-- Two checks of one target are related if what their followers answer is, at the references of
the target and the candidates that a check may come to. -/
theorem check_related (target : Target) (candidate : Option Json)
    (related : ∀ reference, target.Contains (.reference reference) → ∀ part,
      Within part candidate → congruence.Related (first reference part) (second reference part)) :
    congruence.Related (target.check first candidate) (target.check second candidate) :=
  congruence.check_related_of_asks target candidate fun reference part asks =>
    related reference asks.contains part asks.within

end Congruence

end Conform

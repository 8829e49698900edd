import Conform.Proofs.Graph
import Conform.Proofs.Simulation
/-!
# Acceptance is monotone

Where a part of a graph is replaced by one that accepts at least the same candidates, the graph
accepts at least the same candidates. The part may stand at any number of places, in the root and
in what is registered, and may be come upon any number of times. The two evaluations need not take
the same way: with the new part a union may stop at an earlier alternative, so that the induction
is on what the changed graph yields.
-/

namespace Conform

open List (Forall₂)

/-- A target with a new part in some of the places where an old one stood. -/
inductive Target.Replaces (old new : Target) : Target → Target → Prop
  /-- The new part in the place of the old one. -/
  | replaced : Replaces old new old new
  /-- A reference that stays. -/
  | reference {reference : Reference} :
      Replaces old new (.reference reference) (.reference reference)
  /-- A shape with the same in its parts. -/
  | shape {shape shape' : Shape} (alike : shape.Alike (Replaces old new) shape') :
      Replaces old new (.shape shape) (.shape shape')

/-- Every part may stay. -/
theorem Target.Replaces.refl {old new : Target} (target : Target) :
    Target.Replaces old new target target := by
  induction target using Target.inductionOnParts with
  | step whole ih =>
    match whole with
    | .reference _ => exact .reference
    | .shape _ => exact .shape (.of_parts ih)

namespace Store

/-- What a reference stands for in one store is, with a new part in some of the places of an old
one, what it stands for in the other store. -/
def Replaces (old new : Target) (first second : Store) : Prop :=
  ∀ {reference : Reference} {shape shape' : HeldShape}, first.resolve reference = .ok shape →
    second.resolve reference = .ok shape' →
      Target.Replaces old new (.shape shape.value) (.shape shape'.value)

/-- A target accepts a candidate. -/
abbrev Accepts (store : Store) (target : Target) (candidate : Option Json) : Prop :=
  store.Yields target candidate .valid

/-- A shape accepts what evaluation finds valid. -/
theorem accepts_shape_iff (store : Store) (shape : Shape) (candidate : Option Json) :
    store.Accepts (.shape shape) candidate ↔ store.evaluate shape candidate = .ok .valid :=
  store.evaluate_eq_ok_iff.symm

namespace Accepts

variable {store : Store}

/-- Every property of an accepted object is accepted. -/
theorem property {properties : List Property} {members : List (String × Json)}
    (accepts : store.Accepts (.shape (.object properties)) (some (.object members)))
    {property : Property} (member : property ∈ properties) :
    store.Accepts property.target (property.accessor.select? (.object members)) := by
  unfold Accepts at accepts
  generalize result : Outcome.valid = outcome at accepts
  cases accepts with
  | object outcomes each =>
    have valid := (Outcome.ofProperties_mismatches_eq_valid_iff outcomes _).mp result.symm
    rw [Accepts, ← valid property member]
    exact each property member
  | notObject different => exact absurd rfl different

/-- Every element of an accepted array is accepted. -/
theorem element {item : Target} {elements : List Json}
    (accepts : store.Accepts (.shape (.array item)) (some (.array elements))) {element : Json}
    (member : element ∈ elements) : store.Accepts item (some element) := by
  unfold Accepts at accepts
  generalize result : Outcome.valid = outcome at accepts
  cases accepts with
  | array outcomes each =>
    have valid := (Outcome.ofItems_mismatches_eq_valid_iff outcomes _).mp result.symm
    rw [Accepts, ← valid element member]
    exact each element member
  | notArray different => exact absurd rfl different

/-- What a union accepts, one of its alternatives does. -/
theorem exists_alternative {head : Target} {rest : List Target} {candidate : Option Json}
    (accepts : store.Accepts (.shape (.union head rest)) candidate) :
    ∃ choice ∈ head :: rest, store.Accepts choice candidate := by
  cases accepts with
  | chosen split _ _ _ taken => exact ⟨_, split ▸ by simp, taken⟩

variable {old new : Target} {target : Target} {candidate : Option Json}
  (weaker : ∀ candidate, store.Accepts old candidate → store.Accepts new candidate)

include weaker

/-- Where a candidate is accepted before parts of a shape are replaced, it is accepted by a shape of
the same form as the changed one: if the whole is replaced, by the changed one itself. -/
theorem exists_alike (accepts : store.Accepts target candidate) {shape' : Shape}
    (replaces : Target.Replaces old new target (.shape shape')) :
    ∃ shape, store.Accepts (.shape shape) candidate ∧
      shape.Alike (Target.Replaces old new) shape' := by
  cases replaces with
  | replaced => exact ⟨shape', weaker candidate accepts, .of_parts fun part _ => .refl part⟩
  | shape alike => exact ⟨_, accepts, alike⟩

/-- Where a candidate is accepted before a reference is put in, the reference accepts it. -/
theorem reference (accepts : store.Accepts target candidate) {reference : Reference}
    (replaces : Target.Replaces old new target (.reference reference)) :
    store.Accepts (.reference reference) candidate := by
  cases replaces with
  | replaced => exact weaker candidate accepts
  | reference => exact accepts

end Accepts

variable {first second : Store} {old new : Target}

/-- Whatever a target accepts is valid after parts were replaced, if anything is found at all. Of a
union the alternative that accepts the candidate is not refused after the replacement. -/
theorem Accepts.valid_of_replaces
    (weaker : ∀ candidate, first.Accepts old candidate → first.Accepts new candidate)
    (replaces : Replaces old new first second) {target target' : Target}
    {candidate : Option Json} {outcome : Outcome} (accepts : first.Accepts target candidate)
    (related : Target.Replaces old new target target')
    (yields : second.Yields target' candidate outcome) : outcome = .valid := by
  induction yields generalizing target with
  | kind | literal | chosen => rfl
  | wrongKind different =>
    obtain ⟨_, accepts, ⟨⟩⟩ := accepts.exists_alike weaker related
    exact accepts.unique (.wrongKind different)
  | wrongValue refused =>
    obtain ⟨_, accepts, ⟨⟩⟩ := accepts.exists_alike weaker related
    exact accepts.unique (.wrongValue refused)
  | object outcomes _ ih =>
    obtain ⟨_, accepts, alike⟩ := accepts.exists_alike weaker related
    cases alike with
    | object each =>
      rw [Outcome.ofProperties_mismatches_eq_valid_iff]
      intro property' member'
      obtain ⟨property, member, alike⟩ := exists_matched_of_mem each member'
      have accepts := accepts.property member
      cases alike with
      | mk related => exact ih _ member' accepts related
  | notObject different =>
    obtain ⟨_, accepts, ⟨⟩⟩ := accepts.exists_alike weaker related
    exact accepts.unique (.notObject different)
  | array outcomes _ ih =>
    obtain ⟨_, accepts, alike⟩ := accepts.exists_alike weaker related
    cases alike with
    | array related =>
      rw [Outcome.ofItems_mismatches_eq_valid_iff]
      exact fun element member => ih element member (accepts.element member) related
  | notArray different =>
    obtain ⟨_, accepts, ⟨⟩⟩ := accepts.exists_alike weaker related
    exact accepts.unique (.notArray different)
  | refused outcomes _ refused ih =>
    obtain ⟨_, accepts, alike⟩ := accepts.exists_alike weaker related
    cases alike with
    | union each =>
      obtain ⟨choice, member, accepts⟩ := accepts.exists_alternative
      obtain ⟨choice', member', related⟩ := exists_matched_of_mem each.flip member
      exact absurd (ih choice' member' accepts related) (refused choice' member')
  | custom =>
    obtain ⟨_, accepts, ⟨⟩⟩ := accepts.exists_alike weaker related
    exact accepts.unique .custom
  | wrapped _ ih =>
    obtain ⟨_, accepts, alike⟩ := accepts.exists_alike weaker related
    cases alike with
    | wrapped related =>
      cases accepts with
      | wrapped inside => exact ih inside related
  | finished _ ih =>
    obtain ⟨_, accepts, alike⟩ := accepts.exists_alike weaker related
    cases alike with
    | finished related =>
      cases accepts with
      | finished inside => exact ih inside related
  | reference resolved' _ ih =>
    cases accepts.reference weaker related with
    | reference resolved inside => exact ih inside (replaces resolved resolved')

/-- Let a part be replaced by one that accepts every candidate, present or absent, that the old part
accepts, in any places of the root and of what is registered; both parts may have references. Then
every candidate that the original graph accepts is accepted by the changed graph, if its evaluation
returns as well. -/
theorem acceptance_is_monotone
    (weaker : ∀ candidate, first.Accepts old candidate → first.Accepts new candidate)
    (replaces : Replaces old new first second) {shape shape' : Shape}
    (related : Target.Replaces old new (.shape shape) (.shape shape')) {candidate : Option Json}
    {outcome' : Outcome} (accepted : first.evaluate shape candidate = .ok .valid)
    (returned : second.evaluate shape' candidate = .ok outcome') : outcome' = .valid := by
  have accepts := (first.accepts_shape_iff shape candidate).mpr accepted
  exact accepts.valid_of_replaces weaker replaces related (second.evaluate_eq_ok_iff.mp returned)

/-- Whatever is accepted as one certain string is accepted as a string. -/
theorem accepts_string {store : Store} {text : String} {candidate : Option Json}
    (accepts : store.Accepts (.shape (.literal (.json (.string text)))) candidate) :
    store.Accepts (.shape (.kind .string)) candidate := by
  cases accepts with
  | literal accepted =>
    match candidate with
    | some (.string _) => exact .kind rfl
    | none | some .null | some (.bool _) | some (.number _) | some (.array _)
    | some (.object _) => cases accepted

/-- A chain whose links have one certain tag is accepted as well if any string may be a tag, at
every link of it. -/
theorem chain_accepted_with_any_tag :
    let tag : Shape := .literal (.json (.string "link"))
    let anyTag : Shape := .kind .string
    let candidate : Json := .object [("next", .object [("tag", .string "link")]),
      ("tag", .string "link")]
    (ofChains (.chain 0 tag)).evaluate (.chain 0 tag) (some candidate) = .ok .valid ∧
      ∃ outcome, (ofChains (.chain 0 anyTag)).evaluate (.chain 0 anyTag) (some candidate) =
        .ok outcome ∧ outcome = .valid := by
  intro tag anyTag candidate
  have related : Target.Replaces (.shape tag) (.shape anyTag) (.shape (.chain 0 tag))
      (.shape (.chain 0 anyTag)) :=
    .shape (.object (.cons (.mk .replaced) (.cons (.mk (.refl _)) .nil)))
  have replaces : Replaces (.shape tag) (.shape anyTag) (ofChains (.chain 0 tag))
      (ofChains (.chain 0 anyTag)) := by
    intro reference shape shape' resolved resolved'
    rw [eq_of_resolve_ofChains resolved, eq_of_resolve_ofChains resolved']
    exact related
  have accepted : (ofChains (.chain 0 tag)).evaluate (.chain 0 tag) (some candidate) =
      .ok .valid := rfl
  have valid := acceptance_is_monotone (fun _ => accepts_string) replaces related accepted rfl
  exact ⟨accepted, _, rfl, valid⟩

end Store

end Conform

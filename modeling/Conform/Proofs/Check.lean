import Mathlib.Tactic.Choose
import Conform.Shape.Check
/-!
# Checks that return

A check of a list returns exactly if the checks of its entries do, and then returns what they
yield together: of properties and items the mismatches, of alternatives whether one is valid. Each
statement here says so for one kind of list, whatever the follower.
-/

namespace Conform

namespace Outcome

variable {α β : Type}

/-- The mismatches among the outcomes of a list, each with a label, in the order of the list. -/
def mismatches (label : α → β) (outcomes : α → Outcome) (list : List α) : List (β × Outcome) :=
  (list.filter fun entry => !(outcomes entry).isValid).map fun entry =>
    (label entry, outcomes entry)

/-- The outcome of the first entry is added in front if it is a mismatch. -/
theorem mismatches_cons (label : α → β) (outcomes : α → Outcome) (first : α) (rest : List α) :
    mismatches label outcomes (first :: rest) =
      addFailure (label first) (outcomes first) (mismatches label outcomes rest) := by
  cases valid : (outcomes first).isValid <;> simp [mismatches, addFailure, valid]

/-- What is collected are the outcomes of entries, other than `valid`. -/
theorem mem_mismatches_iff (label : α → β) (outcomes : α → Outcome) (list : List α)
    (mismatch : β × Outcome) :
    mismatch ∈ mismatches label outcomes list ↔
      ∃ entry ∈ list, outcomes entry ≠ .valid ∧ (label entry, outcomes entry) = mismatch := by
  simp only [mismatches, List.mem_map, List.mem_filter, Bool.not_eq_true', and_assoc]
  simp only [← Bool.not_eq_true, isValid_iff, ne_eq]

/-- Nothing is collected exactly if every outcome is `valid`. -/
theorem mismatches_eq_nil_iff (label : α → β) (outcomes : α → Outcome) (list : List α) :
    mismatches label outcomes list = [] ↔ ∀ entry ∈ list, outcomes entry = .valid := by
  simp only [mismatches, List.map_eq_nil_iff, List.filter_eq_nil_iff, Bool.not_eq_true',
    Bool.not_eq_false, isValid_iff]

/-- An object is valid exactly if no property has a mismatch. -/
theorem ofProperties_eq_valid_iff (properties : List (String × Outcome)) :
    ofProperties properties = .valid ↔ properties = [] := by
  cases properties <;> simp [ofProperties]

/-- An array is valid exactly if no item has a mismatch. -/
theorem ofItems_eq_valid_iff (items : List (Nat × Outcome)) :
    ofItems items = .valid ↔ items = [] := by
  cases items <;> simp [ofItems]

/-- Properties are valid exactly if each of them is. -/
theorem ofProperties_mismatches_eq_valid_iff (outcomes : Property → Outcome)
    (properties : List Property) :
    ofProperties (mismatches Property.name outcomes properties) = .valid ↔
      ∀ property ∈ properties, outcomes property = .valid := by
  rw [ofProperties_eq_valid_iff, mismatches_eq_nil_iff]

/-- Items are valid exactly if each element is. -/
theorem ofItems_mismatches_eq_valid_iff (outcomes : Json → Outcome) (elements : List Json) :
    ofItems (mismatches Prod.snd (fun entry => outcomes entry.1) elements.zipIdx) = .valid ↔
      ∀ element ∈ elements, outcomes element = .valid := by
  rw [ofItems_eq_valid_iff, mismatches_eq_nil_iff]
  have listed : (∀ element ∈ elements.zipIdx.map Prod.fst, outcomes element = .valid) ↔ _ :=
    List.forall_mem_map
  rw [List.zipIdx_map_fst] at listed
  exact listed.symm

end Outcome

/-- Checks in sequence return exactly if each of them does. -/
theorem Checked.bind_eq_ok_iff {α β : Type} (first : Checked α) (onward : α → Checked β)
    (value : β) :
    (first >>= onward) = .ok value ↔ ∃ middle, first = .ok middle ∧ onward middle = .ok value := by
  cases first with
  | ok middle =>
    constructor
    · exact fun returned => ⟨middle, rfl, returned⟩
    · rintro ⟨_, same, returned⟩
      cases same
      exact returned
  | error cause =>
    constructor
    · exact fun returned => nomatch returned
    · exact fun ⟨_, returned, _⟩ => nomatch returned

instance : Inhabited Outcome := ⟨.valid⟩

/-- Only the kind is looked at where no object is found. -/
theorem Shape.check_of_not_object {follow : Follow} {properties : List Property}
    {candidate : Option Json} (different : Kind.of candidate ≠ .object) :
    (Shape.object properties).check follow candidate =
      .ok (.wrongKind .object (Kind.of candidate)) := by
  match candidate with
  | some (.object _) => exact absurd rfl different
  | none | some .null | some (.bool _) | some (.number _) | some (.string _)
  | some (.array _) => rfl

/-- Only the kind is looked at where no array is found. -/
theorem Shape.check_of_not_array {follow : Follow} {item : Target} {candidate : Option Json}
    (different : Kind.of candidate ≠ .array) :
    (Shape.array item).check follow candidate = .ok (.wrongKind .array (Kind.of candidate)) := by
  match candidate with
  | some (.array _) => exact absurd rfl different
  | none | some .null | some (.bool _) | some (.number _) | some (.string _)
  | some (.object _) => rfl

/-- Where the check of every element returns, the mismatches among the outcomes are returned. -/
theorem itemFailures_of_ok {check : Json → Checked Outcome} {outcomes : Json → Outcome}
    {elements : List Json} (each : ∀ element ∈ elements, check element = .ok (outcomes element))
    (start : Nat) :
    itemFailures check start elements =
      .ok (Outcome.mismatches Prod.snd (fun entry => outcomes entry.1)
        (elements.zipIdx start)) := by
  induction elements generalizing start with
  | nil => rfl
  | cons element rest ih =>
    obtain ⟨checked, others⟩ := List.forall_mem_cons.mp each
    rw [List.zipIdx_cons, Outcome.mismatches_cons]
    exact (Checked.bind_eq_ok_iff _ _ _).mpr
      ⟨_, checked, (Checked.bind_eq_ok_iff _ _ _).mpr ⟨_, ih others (start + 1), rfl⟩⟩

/-- Where the mismatches of items are returned, the check of every element returns. -/
theorem returns_of_itemFailures {check : Json → Checked Outcome} {elements : List Json}
    {start : Nat} {failures : List (Nat × Outcome)}
    (returned : itemFailures check start elements = .ok failures) :
    ∀ element ∈ elements, ∃ outcome, check element = .ok outcome := by
  induction elements generalizing start failures with
  | nil => exact nofun
  | cons element rest ih =>
    obtain ⟨outcome, checked, rested⟩ := (Checked.bind_eq_ok_iff _ _ _).mp returned
    obtain ⟨others, collected, _⟩ := (Checked.bind_eq_ok_iff _ _ _).mp rested
    exact List.forall_mem_cons.mpr ⟨⟨outcome, checked⟩, ih collected⟩

/-- The mismatches of items are those among the outcomes of all elements. -/
theorem itemFailures_eq_ok_iff (check : Json → Checked Outcome) (elements : List Json)
    (failures : List (Nat × Outcome)) :
    itemFailures check 0 elements = .ok failures ↔
      ∃ outcomes : Json → Outcome, (∀ element ∈ elements, check element = .ok (outcomes element)) ∧
        Outcome.mismatches Prod.snd (fun entry => outcomes entry.1) elements.zipIdx = failures := by
  constructor
  · intro returned
    choose! outcomes each using returns_of_itemFailures returned
    exact ⟨outcomes, each, Except.ok.inj ((itemFailures_of_ok each 0).symm.trans returned)⟩
  · rintro ⟨outcomes, each, rfl⟩
    exact itemFailures_of_ok each 0

namespace Property

variable {follow : Follow} {properties : List Property} {value : Json}

/-- Where the check of every property returns, the mismatches among the outcomes are returned. -/
theorem failures_of_ok {outcomes : Property → Outcome}
    (each : ∀ property ∈ properties,
      property.target.check follow (property.accessor.select? value) = .ok (outcomes property)) :
    failures follow properties value =
      .ok (Outcome.mismatches Property.name outcomes properties) := by
  induction properties with
  | nil => rfl
  | cons property rest ih =>
    obtain ⟨checked, others⟩ := List.forall_mem_cons.mp each
    rw [Outcome.mismatches_cons]
    cases property
    exact (Checked.bind_eq_ok_iff _ _ _).mpr
      ⟨_, checked, (Checked.bind_eq_ok_iff _ _ _).mpr ⟨_, ih others, rfl⟩⟩

/-- Where the mismatches of properties are returned, the check of every property returns. -/
theorem returns_of_failures {mismatched : List (String × Outcome)}
    (returned : failures follow properties value = .ok mismatched) :
    ∀ property ∈ properties, ∃ outcome,
      property.target.check follow (property.accessor.select? value) = .ok outcome := by
  induction properties generalizing mismatched with
  | nil => exact nofun
  | cons property rest ih =>
    cases property
    obtain ⟨outcome, checked, rested⟩ := (Checked.bind_eq_ok_iff _ _ _).mp returned
    obtain ⟨others, collected, _⟩ := (Checked.bind_eq_ok_iff _ _ _).mp rested
    exact List.forall_mem_cons.mpr ⟨⟨outcome, checked⟩, ih collected⟩

/-- The mismatches of properties are those among the outcomes of all of them. -/
theorem failures_eq_ok_iff (mismatched : List (String × Outcome)) :
    failures follow properties value = .ok mismatched ↔
      ∃ outcomes : Property → Outcome, (∀ property ∈ properties,
        property.target.check follow (property.accessor.select? value) =
          .ok (outcomes property)) ∧
        Outcome.mismatches Property.name outcomes properties = mismatched := by
  constructor
  · intro returned
    choose! outcomes each using returns_of_failures returned
    exact ⟨outcomes, each, Except.ok.inj ((failures_of_ok each).symm.trans returned)⟩
  · rintro ⟨outcomes, each, rfl⟩
    exact failures_of_ok each

end Property

namespace Target

variable {follow : Follow} {targets : List Target} {candidate : Option Json}

/-- Alternatives that are checked and have mismatches are passed over. -/
theorem failures?_append {outcomes : Target → Outcome}
    (each : ∀ target ∈ targets, target.check follow candidate = .ok (outcomes target))
    (refused : ∀ target ∈ targets, outcomes target ≠ .valid) (others : List Target) :
    failures? follow (targets ++ others) candidate = do
      let failures ← failures? follow others candidate
      return failures.map (targets.map outcomes ++ ·) := by
  induction targets with
  | nil =>
    simp only [List.nil_append, List.map_nil, Option.map_id']
    cases failures? follow others candidate <;> rfl
  | cons target rest ih =>
    obtain ⟨checked, eachOther⟩ := List.forall_mem_cons.mp each
    obtain ⟨mismatch, refusedOther⟩ := List.forall_mem_cons.mp refused
    have invalid : ¬ (outcomes target).isValid = true := fun valid =>
      mismatch ((Outcome.isValid_iff _).mp valid)
    rw [List.cons_append, failures?, checked, ih eachOther refusedOther]
    simp only [bind, Except.bind, pure, Except.pure, if_neg invalid]
    cases failures? follow others candidate with
    | error cause => rfl
    | ok failures => cases failures <;> rfl

/-- What alternatives return tells which of them were checked, and with which outcome: each one
before the first valid one, or all of them. -/
theorem returns_of_failures? {result : Option (List Outcome)}
    (returned : failures? follow targets candidate = .ok result) :
    ∃ before after, targets = before ++ after ∧
      (∀ target ∈ before, ∃ outcome, target.check follow candidate = .ok outcome ∧
        outcome ≠ .valid) ∧
      (after = [] ∨ ∃ choice rest, after = choice :: rest ∧
        choice.check follow candidate = .ok .valid) := by
  induction targets generalizing result with
  | nil => exact ⟨[], [], rfl, nofun, .inl rfl⟩
  | cons target rest ih =>
    obtain ⟨outcome, checked, rested⟩ := (Checked.bind_eq_ok_iff _ _ _).mp returned
    by_cases valid : outcome = .valid
    · subst valid
      exact ⟨[], target :: rest, rfl, nofun, .inr ⟨target, rest, rfl, checked⟩⟩
    · rw [if_neg fun isValid => valid ((Outcome.isValid_iff _).mp isValid)] at rested
      obtain ⟨others, collected, _⟩ := (Checked.bind_eq_ok_iff _ _ _).mp rested
      obtain ⟨before, after, rfl, each, ending⟩ := ih collected
      exact ⟨target :: before, after, rfl,
        List.forall_mem_cons.mpr ⟨⟨outcome, checked, valid⟩, each⟩, ending⟩

/-- Every alternative is refused exactly if each of them is checked and has a mismatch. -/
theorem failures?_eq_some_iff (failures : List Outcome) :
    failures? follow targets candidate = .ok (some failures) ↔
      ∃ outcomes : Target → Outcome,
        (∀ target ∈ targets, target.check follow candidate = .ok (outcomes target)) ∧
        (∀ target ∈ targets, outcomes target ≠ .valid) ∧ targets.map outcomes = failures := by
  constructor
  · intro returned
    obtain ⟨before, after, rfl, checked, ending⟩ := returns_of_failures? returned
    choose! outcomes each refused using checked
    rw [failures?_append each refused] at returned
    rcases ending with rfl | ⟨choice, rest, rfl, taken⟩
    · refine ⟨outcomes, by simpa using each, by simpa using refused, ?_⟩
      simpa [failures?, bind, Except.bind, pure, Except.pure] using returned
    · rw [failures?, taken] at returned
      cases returned
  · rintro ⟨outcomes, each, refused, rfl⟩
    have passed := failures?_append each refused []
    simpa [failures?, bind, Except.bind, pure, Except.pure] using passed

/-- An alternative is taken exactly if it is valid and each one before it has a mismatch. -/
theorem failures?_eq_none_iff :
    failures? follow targets candidate = .ok none ↔
      ∃ before choice after, ∃ outcomes : Target → Outcome, targets = before ++ choice :: after ∧
        (∀ target ∈ before, target.check follow candidate = .ok (outcomes target)) ∧
        (∀ target ∈ before, outcomes target ≠ .valid) ∧
        choice.check follow candidate = .ok .valid := by
  constructor
  · intro returned
    obtain ⟨before, after, rfl, checked, ending⟩ := returns_of_failures? returned
    choose! outcomes each refused using checked
    rcases ending with rfl | ⟨choice, rest, rfl, taken⟩
    · rw [failures?_append each refused] at returned
      cases returned
    · exact ⟨before, choice, rest, outcomes, rfl, each, refused, taken⟩
  · rintro ⟨before, choice, after, outcomes, rfl, each, refused, taken⟩
    rw [failures?_append each refused, failures?, taken]
    rfl

end Target

/-- The check of a union goes through its alternatives. -/
theorem Shape.check_union (follow : Follow) (first : Target) (rest : List Target)
    (candidate : Option Json) :
    (Shape.union first rest).check follow candidate = do
      match ← Target.failures? follow (first :: rest) candidate with
      | none => return .valid
      | some failures => return .inAlternatives failures := by
  rw [Shape.check, Target.failures?]
  cases first.check follow candidate with
  | error cause => rfl
  | ok outcome =>
    cases valid : outcome.isValid with
    | true => simp [valid, bind, Except.bind, pure, Except.pure]
    | false =>
      simp only [valid, bind, Except.bind, pure, Except.pure, Bool.false_eq_true, if_false]
      cases Target.failures? follow rest candidate with
      | error cause => rfl
      | ok failures => cases failures <;> rfl

end Conform

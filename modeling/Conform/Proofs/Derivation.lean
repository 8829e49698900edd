import Conform.Proofs.Bound
import Conform.Proofs.Check
/-!
# Evaluation as a relation

`Store.Yields` derives the outcome of a candidate from the outcomes that its parts have, with a
rule for every way in which a shape judges and no bound on following references. It derives
exactly what evaluation returns (`Store.evaluate_eq_ok_iff`), so what holds of every derivation
holds of every evaluation that returns, and is proved by induction on rules instead of bounds and
shapes.
-/

namespace Conform

namespace Store

/-- A candidate has an outcome under a target. The functions in the rules for objects, arrays and
unions give the outcome of every part that the rule asks for. -/
inductive Yields (store : Store) : Target → Option Json → Outcome → Prop
  /-- A candidate of the expected kind. -/
  | kind {expected : Kind} {candidate : Option Json} (same : Kind.of candidate = expected) :
      Yields store (.shape (.kind expected)) candidate .valid
  /-- A candidate of another kind. -/
  | wrongKind {expected : Kind} {candidate : Option Json}
      (different : Kind.of candidate ≠ expected) :
      Yields store (.shape (.kind expected)) candidate
        (.wrongKind expected (Kind.of candidate))
  /-- A candidate with the expected value. -/
  | literal {expected : Literal} {candidate : Option Json}
      (accepted : expected.accepts candidate = true) :
      Yields store (.shape (.literal expected)) candidate .valid
  /-- A candidate with another value. -/
  | wrongValue {expected : Literal} {candidate : Option Json}
      (refused : expected.accepts candidate = false) :
      Yields store (.shape (.literal expected)) candidate
        (.wrongValue expected (Literal.of candidate))
  /-- An object, all of whose properties are checked. -/
  | object {properties : List Property} {members : List (String × Json)}
      (outcomes : Property → Outcome)
      (each : ∀ property ∈ properties, Yields store property.target
        (property.accessor.select? (.object members)) (outcomes property)) :
      Yields store (.shape (.object properties)) (some (.object members))
        (.ofProperties (Outcome.mismatches Property.name outcomes properties))
  /-- No object, where one is expected. -/
  | notObject {properties : List Property} {candidate : Option Json}
      (different : Kind.of candidate ≠ .object) :
      Yields store (.shape (.object properties)) candidate
        (.wrongKind .object (Kind.of candidate))
  /-- An array, all of whose elements are checked. -/
  | array {item : Target} {elements : List Json} (outcomes : Json → Outcome)
      (each : ∀ element ∈ elements, Yields store item (some element) (outcomes element)) :
      Yields store (.shape (.array item)) (some (.array elements))
        (.ofItems (Outcome.mismatches Prod.snd (fun entry => outcomes entry.1)
          elements.zipIdx))
  /-- No array, where one is expected. -/
  | notArray {item : Target} {candidate : Option Json} (different : Kind.of candidate ≠ .array) :
      Yields store (.shape (.array item)) candidate (.wrongKind .array (Kind.of candidate))
  /-- A valid alternative after others that have mismatches. -/
  | chosen {first choice : Target} {rest before after : List Target} {candidate : Option Json}
      (split : first :: rest = before ++ choice :: after) (outcomes : Target → Outcome)
      (each : ∀ target ∈ before, Yields store target candidate (outcomes target))
      (refused : ∀ target ∈ before, outcomes target ≠ .valid)
      (taken : Yields store choice candidate .valid) :
      Yields store (.shape (.union first rest)) candidate .valid
  /-- Alternatives that all have mismatches. -/
  | refused {first : Target} {rest : List Target} {candidate : Option Json}
      (outcomes : Target → Outcome)
      (each : ∀ target ∈ first :: rest, Yields store target candidate (outcomes target))
      (refused : ∀ target ∈ first :: rest, outcomes target ≠ .valid) :
      Yields store (.shape (.union first rest)) candidate
        (.inAlternatives ((first :: rest).map outcomes))
  /-- What a function judges. -/
  | custom {judge : Option Json → Outcome} {candidate : Option Json} :
      Yields store (.shape (.custom judge)) candidate (judge candidate)
  /-- What the shape inside yields. -/
  | wrapped {inner : Shape} {candidate : Option Json} {outcome : Outcome}
      (inside : Yields store (.shape inner) candidate outcome) :
      Yields store (.shape (.wrapped inner)) candidate outcome
  /-- What the root of a finished registry yields. -/
  | finished {storage : StorageId} {root : Shape} {candidate : Option Json} {outcome : Outcome}
      (inside : Yields store (.shape root) candidate outcome) :
      Yields store (.shape (.finished storage root)) candidate outcome
  /-- What the shape yields that a reference stands for. -/
  | reference {reference : Reference} {shape : HeldShape} {candidate : Option Json}
      {outcome : Outcome} (resolved : store.resolve reference = .ok shape)
      (inside : Yields store (.shape shape.value) candidate outcome) :
      Yields store (.reference reference) candidate outcome

variable (store : Store)

/-- A larger bound changes no outcome of a target. -/
theorem check_follow_of_le {smaller larger : Nat} (ordered : smaller ≤ larger) {target : Target}
    {candidate : Option Json} {outcome : Outcome}
    (returned : target.check (store.follow smaller) candidate = .ok outcome) :
    target.check (store.follow larger) candidate = .ok outcome := by
  have related : Congruence.ending.Related (target.check (store.follow smaller) candidate)
      (target.check (store.follow larger) candidate) :=
    Congruence.ending.check_related target candidate fun _ _ _ _ =>
      Congruence.ending_of_eq (store.follow_eq_of_le ordered)
  rw [returned] at related
  exact related

/-- Finitely many checks that return under some bound return under a common one. -/
theorem exists_common_bound {α : Type} (list : List α) (target : α → Target)
    (candidate : α → Option Json) (outcomes : α → Outcome)
    (each : ∀ entry ∈ list, ∃ bound,
      (target entry).check (store.follow bound) (candidate entry) = .ok (outcomes entry)) :
    ∃ bound, ∀ entry ∈ list,
      (target entry).check (store.follow bound) (candidate entry) = .ok (outcomes entry) := by
  induction list with
  | nil => exact ⟨0, nofun⟩
  | cons first rest ih =>
    obtain ⟨⟨firstBound, returned⟩, others⟩ := List.forall_mem_cons.mp each
    obtain ⟨restBound, rested⟩ := ih others
    refine ⟨max firstBound restBound, List.forall_mem_cons.mpr ⟨?_, fun entry member => ?_⟩⟩
    · exact store.check_follow_of_le (Nat.le_max_left _ _) returned
    · exact store.check_follow_of_le (Nat.le_max_right _ _) (rested entry member)

/-- A derived outcome is returned under some bound. -/
theorem exists_bound_of_yields {target : Target} {candidate : Option Json} {outcome : Outcome}
    (yields : store.Yields target candidate outcome) :
    ∃ bound, target.check (store.follow bound) candidate = .ok outcome := by
  induction yields with
  | kind same => exact ⟨0, congrArg Except.ok (if_pos same)⟩
  | wrongKind different => exact ⟨0, congrArg Except.ok (if_neg different)⟩
  | literal accepted => exact ⟨0, congrArg Except.ok (if_pos accepted)⟩
  | wrongValue refused => exact ⟨0, congrArg Except.ok (if_neg (by simp [refused]))⟩
  | @object properties members outcomes _ ih =>
    obtain ⟨bound, returned⟩ := store.exists_common_bound properties Property.target
      (fun property => property.accessor.select? (.object members)) outcomes ih
    refine ⟨bound, (Checked.bind_eq_ok_iff _ _ _).mpr ⟨_, ?_, rfl⟩⟩
    exact Property.failures_of_ok returned
  | notObject different =>
    refine ⟨0, Shape.check_of_not_object different⟩
  | @array item elements outcomes _ ih =>
    obtain ⟨bound, returned⟩ := store.exists_common_bound elements (fun _ => item) some outcomes ih
    exact ⟨bound, (Checked.bind_eq_ok_iff _ _ _).mpr ⟨_, itemFailures_of_ok returned 0, rfl⟩⟩
  | notArray different => exact ⟨0, Shape.check_of_not_array different⟩
  | @chosen first choice rest before after candidate split outcomes _ refused _ ih taken =>
    obtain ⟨earlier, returned⟩ := store.exists_common_bound before id (fun _ => candidate)
      outcomes ih
    obtain ⟨later, valid⟩ := taken
    have passed : ∀ target ∈ before, target.check (store.follow (max earlier later)) candidate =
        .ok (outcomes target) := fun target member =>
      store.check_follow_of_le (Nat.le_max_left _ _) (returned target member)
    have accepted := store.check_follow_of_le (Nat.le_max_right earlier later) valid
    refine ⟨max earlier later, ?_⟩
    rw [Target.check, Shape.check_union, Target.failures?_eq_none_iff.mpr
      ⟨before, choice, after, outcomes, split, passed, refused, accepted⟩]
    rfl
  | @refused first rest candidate outcomes _ refused ih =>
    obtain ⟨bound, returned⟩ := store.exists_common_bound (first :: rest) id (fun _ => candidate)
      outcomes ih
    refine ⟨bound, ?_⟩
    rw [Target.check, Shape.check_union,
      (Target.failures?_eq_some_iff _).mpr ⟨outcomes, returned, refused, rfl⟩]
    rfl
  | custom => exact ⟨0, rfl⟩
  | wrapped _ ih => exact ih
  | finished _ ih => exact ih
  | reference resolved _ ih =>
    obtain ⟨bound, returned⟩ := ih
    exact ⟨bound + 1, (store.follow_succ_of_resolved resolved bound _).trans returned⟩

/-- An outcome is derived if a check returns it whose follower returns derived outcomes only. -/
theorem yields_of_check {follow : Follow}
    (followed : ∀ reference candidate outcome, follow reference candidate = .ok outcome →
      store.Yields (.reference reference) candidate outcome)
    {target : Target} {candidate : Option Json} {outcome : Outcome}
    (returned : target.check follow candidate = .ok outcome) :
    store.Yields target candidate outcome := by
  induction target using Target.inductionOnParts generalizing candidate outcome with
  | step whole ih =>
    match whole with
    | .reference reference => exact followed reference candidate outcome returned
    | .shape (.kind expected) =>
      obtain rfl := Except.ok.inj returned
      by_cases same : Kind.of candidate = expected
      · rw [if_pos same]
        exact .kind same
      · rw [if_neg same]
        exact .wrongKind same
    | .shape (.literal expected) =>
      obtain rfl := Except.ok.inj returned
      cases accepted : expected.accepts candidate with
      | true => exact .literal accepted
      | false => exact .wrongValue accepted
    | .shape (.custom judge) =>
      obtain rfl := Except.ok.inj returned
      exact .custom
    | .shape (.wrapped inner) => exact .wrapped (ih _ .inner returned)
    | .shape (.finished storage root) => exact .finished (ih _ .root returned)
    | .shape (.object properties) =>
      by_cases same : Kind.of candidate = .object
      · obtain ⟨members, rfl⟩ := Kind.of_eq_object_iff.mp same
        obtain ⟨failures, collected, made⟩ := (Checked.bind_eq_ok_iff _ _ _).mp returned
        obtain ⟨outcomes, each, rfl⟩ := (Property.failures_eq_ok_iff failures).mp collected
        obtain rfl := Except.ok.inj made
        exact .object outcomes fun property member => ih _ (.property member) (each _ member)
      · rw [Target.check, Shape.check_of_not_object same] at returned
        obtain rfl := Except.ok.inj returned
        exact .notObject same
    | .shape (.array item) =>
      by_cases same : Kind.of candidate = .array
      · obtain ⟨elements, rfl⟩ := Kind.of_eq_array_iff.mp same
        obtain ⟨failures, collected, made⟩ := (Checked.bind_eq_ok_iff _ _ _).mp returned
        obtain ⟨outcomes, each, rfl⟩ := (itemFailures_eq_ok_iff _ _ failures).mp collected
        obtain rfl := Except.ok.inj made
        exact .array outcomes fun element member => ih _ .item (each element member)
      · rw [Target.check, Shape.check_of_not_array same] at returned
        obtain rfl := Except.ok.inj returned
        exact .notArray same
    | .shape (.union first rest) =>
      rw [Target.check, Shape.check_union] at returned
      obtain ⟨result, gone, made⟩ := (Checked.bind_eq_ok_iff _ _ _).mp returned
      cases result with
      | none =>
        obtain rfl := Except.ok.inj made
        obtain ⟨before, choice, after, outcomes, split, each, refused, taken⟩ :=
          Target.failures?_eq_none_iff.mp gone
        have listed {target : Target} (member : target ∈ before ++ choice :: after) :
            target ∈ first :: rest := split ▸ member
        refine .chosen split outcomes (fun target member => ?_) refused ?_
        · exact ih _ (.alternative (listed (List.mem_append_left _ member))) (each _ member)
        · exact ih _ (.alternative (listed (by simp))) taken
      | some failures =>
        obtain rfl := Except.ok.inj made
        obtain ⟨outcomes, each, refused, rfl⟩ := (Target.failures?_eq_some_iff _).mp gone
        exact .refused outcomes (fun target member => ih _ (.alternative member) (each _ member))
          refused

/-- An outcome that following a reference returns is derived. -/
theorem yields_of_follow {bound : Nat} {reference : Reference} {candidate : Option Json}
    {outcome : Outcome} (returned : store.follow bound reference candidate = .ok outcome) :
    store.Yields (.reference reference) candidate outcome := by
  induction bound generalizing reference candidate outcome with
  | zero =>
    cases resolved : store.resolve reference with
    | error error => simp [store.follow_of_unresolved resolved] at returned
    | ok shape => simp [store.follow_zero_of_resolved resolved] at returned
  | succ bound ih =>
    cases resolved : store.resolve reference with
    | error error => simp [store.follow_of_unresolved resolved] at returned
    | ok shape =>
      rw [store.follow_succ_of_resolved resolved] at returned
      exact .reference resolved (store.yields_of_check (fun _ _ _ => ih) returned)

/-- Evaluation returns exactly the outcomes that are derived. -/
theorem evaluate_eq_ok_iff {shape : Shape} {candidate : Option Json} {outcome : Outcome} :
    store.evaluate shape candidate = .ok outcome ↔
      store.Yields (.shape shape) candidate outcome := by
  have ends : (.ok outcome : Checked Outcome) ≠ .error .exhausted := fun same => nomatch same
  rw [store.evaluate_eq_iff ends]
  constructor
  · rintro ⟨bound, returned⟩
    exact store.yields_of_check (fun _ _ _ => store.yields_of_follow) returned
  · exact fun yields => store.exists_bound_of_yields yields

/-- A candidate has no more than one outcome under a target. -/
theorem Yields.unique {store : Store} {target : Target} {candidate : Option Json}
    {outcome other : Outcome} (yields : store.Yields target candidate outcome)
    (yields' : store.Yields target candidate other) : other = outcome := by
  obtain ⟨bound, returned⟩ := store.exists_bound_of_yields yields
  obtain ⟨bound', returned'⟩ := store.exists_bound_of_yields yields'
  have first := store.check_follow_of_le (Nat.le_max_left bound bound') returned
  have second := store.check_follow_of_le (Nat.le_max_right bound bound') returned'
  exact Except.ok.inj (second.symm.trans first)

end Store

end Conform

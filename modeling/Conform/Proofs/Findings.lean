import Conform.Proofs.Comparison
import Conform.Proofs.Simulation
/-!
# What checks find

Of a check a report shows no more than its findings: whether it was interrupted and why, whether
the candidate is valid, and the mismatches with their places. The findings of a shape are composed
of those of its parts. All properties of an object and all items of an array are gathered
(`Findings.both`), while the alternatives of a union are tried one after the other up to a valid one
(`Findings.orElse`). Trying is associative, which is more than can be said of the outcomes: they
keep the tree of unions.
-/

namespace Conform

open List (Forall₂)

/-- What a check finds, unless it is interrupted: nothing if the candidate is valid, and otherwise
the mismatches with their places. -/
abbrev Findings := Checked (Option (List (List Step × Mismatch)))

/-- What is found according to an outcome. -/
def Outcome.found? (outcome : Outcome) : Option (List (List Step × Mismatch)) :=
  if outcome.isValid then none else some outcome.located

/-- What is found according to the result of a check. -/
def Checked.findings (result : Checked Outcome) : Findings := result.map Outcome.found?

/-- Findings tell whether a check was interrupted, and why. -/
theorem Checked.findings_eq_error_iff (result : Checked Outcome) (cause : Interruption) :
    result.findings = .error cause ↔ result = .error cause := by
  cases result <;> simp [findings, Except.map]

namespace Findings

/-- The findings of a part, as findings of the whole. -/
def afterStep (step : Step) (findings : Findings) : Findings :=
  findings.map (Option.map (Outcome.afterStep step))

/-- The findings of two parts that are both checked. -/
def both (first second : Findings) : Findings := do
  let found ← first
  let others ← second
  return found.merge (· ++ ·) others

/-- The findings of two alternatives, the second of which is tried if the first one is refused. -/
def orElse (first second : Findings) : Findings := do
  match ← first with
  | none => return none
  | some found =>
    let others ← second
    return others.map (found ++ ·)

/-- The findings of parts that are all checked. -/
def allOf (findings : List Findings) : Findings := findings.foldr both (.ok none)

/-- The findings of alternatives that are tried one after the other. -/
def anyOf (findings : List Findings) : Findings := findings.foldr orElse (.ok (some []))

/-- It does not matter in which way three alternatives are nested. -/
theorem orElse_assoc (first second third : Findings) :
    orElse (orElse first second) third = orElse first (orElse second third) := by
  rcases first with cause | _ | found
  · rfl
  · rfl
  · rcases second with cause | _ | others
    · rfl
    · rfl
    · rcases third with cause | _ | last
      · rfl
      · rfl
      · exact congrArg (fun all => Except.ok (some all)) (List.append_assoc found others last)

/-- No alternative before others adds no finding. -/
theorem empty_orElse (findings : Findings) : orElse (.ok (some [])) findings = findings := by
  rcases findings with cause | _ | found <;> rfl

/-- No alternative after others adds no finding. -/
theorem orElse_empty (findings : Findings) : orElse findings (.ok (some [])) = findings := by
  rcases findings with cause | _ | found
  · rfl
  · rfl
  · exact congrArg (fun all => Except.ok (some all)) (List.append_nil found)

/-- A single alternative has its own findings. -/
theorem anyOf_singleton (findings : Findings) : anyOf [findings] = findings :=
  orElse_empty findings

/-- Alternatives are tried one list after the other. -/
theorem anyOf_append (first second : List Findings) :
    anyOf (first ++ second) = orElse (anyOf first) (anyOf second) := by
  induction first with
  | nil => exact (empty_orElse _).symm
  | cons findings rest ih =>
    calc
      anyOf (findings :: (rest ++ second))
      _ = orElse findings (orElse (anyOf rest) (anyOf second)) := congrArg (orElse findings) ih
      _ = orElse (anyOf (findings :: rest)) (anyOf second) := (orElse_assoc _ _ _).symm

end Findings

namespace Outcome

/-- Nothing is found where the outcome is valid. -/
theorem found?_of_isValid {outcome : Outcome} (valid : outcome.isValid = true) :
    outcome.found? = none := if_pos valid

/-- The mismatches are found where the outcome is not valid. -/
theorem found?_of_not_isValid {outcome : Outcome} (invalid : outcome.isValid = false) :
    outcome.found? = some outcome.located := if_neg (by simp [invalid])

/-- Outcomes with the same findings are both valid, or neither is, and they have the same mismatches
at the same places. -/
theorem same_of_found? {outcome outcome' : Outcome} (same : outcome'.found? = outcome.found?) :
    (outcome' = .valid ↔ outcome = .valid) ∧ outcome'.located = outcome.located := by
  rw [← isValid_iff, ← isValid_iff]
  cases valid : outcome.isValid with
  | true =>
    cases valid' : outcome'.isValid with
    | true =>
      rw [(isValid_iff _).mp valid, (isValid_iff _).mp valid']
      exact ⟨.rfl, rfl⟩
    | false =>
      rw [found?_of_isValid valid, found?_of_not_isValid valid'] at same
      cases same
  | false =>
    cases valid' : outcome'.isValid with
    | true =>
      rw [found?_of_not_isValid valid, found?_of_isValid valid'] at same
      cases same
    | false =>
      rw [found?_of_not_isValid valid, found?_of_not_isValid valid'] at same
      exact ⟨.rfl, Option.some.inj same⟩

/-- One more labelled outcome adds what is found in it, where `whole` makes `composite` of
mismatches, one step further down, and nothing of none. -/
theorem found?_addFailure {α : Type} (whole composite : List (α × Outcome) → Outcome)
    (step : α → Step) (ofNil : whole [] = .valid)
    (ofCons : ∀ entry rest, whole (entry :: rest) = composite (entry :: rest))
    (invalid : ∀ entries, (composite entries).isValid = false)
    (located : ∀ entries, (composite entries).located =
      entries.flatMap fun entry => afterStep (step entry.1) entry.2.located)
    (label : α) (outcome : Outcome) (entries : List (α × Outcome)) :
    (whole (addFailure label outcome entries)).found? =
      (outcome.found?.map (afterStep (step label))).merge (· ++ ·) (whole entries).found? := by
  cases valid : outcome.isValid with
  | true =>
    rw [addFailure, if_pos valid, found?_of_isValid valid, Option.map_none, Option.merge_none_left]
  | false =>
    have added : addFailure label outcome entries = (label, outcome) :: entries :=
      if_neg (by simp [valid])
    rw [added, ofCons, found?_of_not_isValid (invalid _), found?_of_not_isValid valid, located,
      List.flatMap_cons]
    cases entries with
    | nil =>
      rw [ofNil]
      exact congrArg some (List.append_nil _)
    | cons first rest =>
      rw [ofCons, found?_of_not_isValid (invalid _), located]
      rfl

end Outcome

/-- The findings of properties are gathered in their order. -/
theorem Property.findings_failures (follow : Follow) (properties : List Property) (value : Json) :
    (Property.failures follow properties value).map (fun mismatched =>
        (Outcome.ofProperties mismatched).found?) =
      Findings.allOf (properties.map fun property => Findings.afterStep (.field property.name)
        (property.target.check follow (property.accessor.select? value)).findings) := by
  induction properties with
  | nil => rfl
  | cons property rest ih =>
    obtain ⟨name, accessor, target⟩ := property
    rw [Property.failures, List.map_cons, Findings.allOf, List.foldr_cons, ← Findings.allOf, ← ih]
    cases target.check follow (accessor.select? value) with
    | error cause => rfl
    | ok outcome =>
      cases Property.failures follow rest value with
      | error cause => rfl
      | ok mismatched =>
        exact congrArg Except.ok (Outcome.found?_addFailure .ofProperties .inProperties .field rfl
          (fun _ _ => rfl) (fun _ => rfl) Outcome.located_inProperties name outcome mismatched)

/-- The findings of items are gathered in their order. -/
theorem findings_itemFailures (check : Json → Checked Outcome) (elements : List Json)
    (start : Nat) :
    (itemFailures check start elements).map (fun mismatched =>
        (Outcome.ofItems mismatched).found?) =
      Findings.allOf ((elements.zipIdx start).map fun entry =>
        Findings.afterStep (.index entry.2) (check entry.1).findings) := by
  induction elements generalizing start with
  | nil => rfl
  | cons element rest ih =>
    rw [itemFailures, List.zipIdx_cons, List.map_cons, Findings.allOf, List.foldr_cons,
      ← Findings.allOf, ← ih]
    cases check element with
    | error cause => rfl
    | ok outcome =>
      cases itemFailures check (start + 1) rest with
      | error cause => rfl
      | ok mismatched =>
        exact congrArg Except.ok (Outcome.found?_addFailure .ofItems .inItems .index rfl
          (fun _ _ => rfl) (fun _ => rfl) Outcome.located_inItems start outcome mismatched)

/-- The findings of alternatives are those of each one that is tried. -/
theorem Target.findings_failures? (follow : Follow) (targets : List Target)
    (candidate : Option Json) :
    (Target.failures? follow targets candidate).map (Option.map (List.flatMap Outcome.located)) =
      Findings.anyOf (targets.map fun target => (target.check follow candidate).findings) := by
  induction targets with
  | nil => rfl
  | cons target rest ih =>
    rw [Target.failures?, List.map_cons, Findings.anyOf, List.foldr_cons, ← Findings.anyOf, ← ih]
    cases target.check follow candidate with
    | error cause => rfl
    | ok outcome =>
      cases valid : outcome.isValid with
      | true =>
        simp [Checked.findings, Outcome.found?, valid, Findings.orElse, bind, Except.bind,
          Except.map, pure, Except.pure]
      | false =>
        rcases Target.failures? follow rest candidate with cause | _ | failures <;>
          simp [Checked.findings, Outcome.found?, valid, Findings.orElse, bind, Except.bind,
            Except.map, pure, Except.pure]

namespace Shape

variable (follow : Follow)

/-- An object has the findings of all its properties. -/
theorem findings_object (properties : List Property) (members : List (String × Json)) :
    ((Shape.object properties).check follow (some (.object members))).findings =
      Findings.allOf (properties.map fun property => Findings.afterStep (.field property.name)
        (property.target.check follow (property.accessor.select? (.object members))).findings) := by
  rw [← Property.findings_failures, Shape.check]
  cases Property.failures follow properties (.object members) <;> rfl

/-- An array has the findings of all its items. -/
theorem findings_array (item : Target) (elements : List Json) :
    ((Shape.array item).check follow (some (.array elements))).findings =
      Findings.allOf (elements.zipIdx.map fun entry => Findings.afterStep (.index entry.2)
        (item.check follow (some entry.1)).findings) := by
  rw [← findings_itemFailures (fun element => item.check follow (some element)), Shape.check]
  cases itemFailures (fun element => item.check follow (some element)) 0 elements <;> rfl

/-- A union has the findings of its alternatives, up to a valid one. -/
theorem findings_union (first : Target) (rest : List Target) (candidate : Option Json) :
    ((Shape.union first rest).check follow candidate).findings =
      Findings.anyOf ((first :: rest).map fun target =>
        (target.check follow candidate).findings) := by
  rw [← Target.findings_failures?, Shape.check_union]
  rcases Target.failures? follow (first :: rest) candidate with cause | _ | failures
  · rfl
  · rfl
  · exact congrArg (fun found => Except.ok (some found)) (Outcome.located_inAlternatives failures)

/-- Shapes of the same form have the same findings if their parts do. -/
theorem Alike.findings_eq {Related : Target → Target → Prop} {first second : Follow}
    {shape shape' : Shape} (alike : shape.Alike Related shape')
    (same : ∀ part part', (Target.shape shape).HasPart part → Related part part' →
      ∀ candidate, (part'.check second candidate).findings = (part.check first candidate).findings)
    (candidate : Option Json) :
    (shape'.check second candidate).findings = (shape.check first candidate).findings := by
  cases alike with
  | kind => rfl
  | literal => rfl
  | custom => rfl
  | wrapped related => exact same _ _ .inner related candidate
  | finished related => exact same _ _ .root related candidate
  | @object properties properties' each =>
    by_cases isObject : Kind.of candidate = .object
    · obtain ⟨members, rfl⟩ := Kind.of_eq_object_iff.mp isObject
      rw [findings_object, findings_object]
      congr 1
      rw [← List.forall₂_eq_eq_eq, List.forall₂_map_left_iff, List.forall₂_map_right_iff]
      refine (forall₂_with_mem each.flip).imp ?_
      rintro _ property ⟨_, member, ⟨related⟩⟩
      exact congrArg _ (same _ _ (.property member) related _)
    · rw [check_of_not_object isObject, check_of_not_object isObject]
  | array related =>
    by_cases isArray : Kind.of candidate = .array
    · obtain ⟨elements, rfl⟩ := Kind.of_eq_array_iff.mp isArray
      rw [findings_array, findings_array]
      congr 1
      exact List.map_congr_left fun entry _ => congrArg _ (same _ _ .item related _)
    · rw [check_of_not_array isArray, check_of_not_array isArray]
  | union each =>
    rw [findings_union, findings_union]
    congr 1
    rw [← List.forall₂_eq_eq_eq, List.forall₂_map_left_iff, List.forall₂_map_right_iff]
    refine (forall₂_with_mem each.flip).imp fun part' part found => ?_
    exact same part part' (.alternative found.2.1) found.2.2 candidate

end Shape

end Conform

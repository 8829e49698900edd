import Conform.Proofs.Bound
import Conform.Proofs.Findings
/-!
# Nested unions

A union whose alternatives are unions again may be written as one union: its alternatives are then
those of the nested ones, read from left to right. The outcomes are different trees, but a report
does not tell them apart, wherever in a graph and how deep unions are nested. The reason is that
trying alternatives one after the other is associative, for interruptions as well as for mismatches;
the rest is that findings of wholes are made of those of parts.
-/

namespace Conform

open Relation
open List (Forall₂)

mutual

/-- What stands for a shape among alternatives: the alternatives of a union, at any depth, and
otherwise the shape itself. -/
def Shape.alternatives : Shape → List Target
  | .union first rest => first.alternatives ++ Target.allAlternatives rest
  | other => [.shape other]

/-- What stands for a target among alternatives. -/
def Target.alternatives : Target → List Target
  | .shape shape => shape.alternatives
  | .reference reference => [.reference reference]

/-- What stands for targets among alternatives, read from left to right. -/
def Target.allAlternatives : List Target → List Target
  | [] => []
  | target :: rest => target.alternatives ++ Target.allAlternatives rest

end

namespace Target

/-- A union has the alternatives of its alternatives. -/
theorem alternatives_union (first : Target) (rest : List Target) :
    (Target.shape (.union first rest)).alternatives = allAlternatives (first :: rest) := rfl

/-- The alternatives of targets are those of each of them. -/
theorem allAlternatives_eq_flatMap (targets : List Target) :
    allAlternatives targets = targets.flatMap alternatives := by
  induction targets with
  | nil => rfl
  | cons target rest ih => rw [allAlternatives, ih, List.flatMap_cons]

/-- A target other than a union stands for itself. -/
theorem alternatives_of_not_union {target : Target}
    (notUnion : ¬ ∃ first rest, target = .shape (.union first rest)) :
    target.alternatives = [target] := by
  match target with
  | .shape (.union first rest) => exact absurd ⟨first, rest, rfl⟩ notUnion
  | .reference _ | .shape (.kind _) | .shape (.literal _) | .shape (.object _)
  | .shape (.array _) | .shape (.custom _) | .shape (.wrapped _) | .shape (.finished _ _) => rfl

/-- What stands for a target among alternatives stands in the target. -/
theorem contains_of_mem_alternatives {target alternative : Target}
    (member : alternative ∈ target.alternatives) : target.Contains alternative := by
  induction target using Target.inductionOnParts with
  | step whole ih =>
    by_cases isUnion : ∃ first rest, whole = .shape (.union first rest)
    · obtain ⟨first, rest, rfl⟩ := isUnion
      rw [alternatives_union, allAlternatives_eq_flatMap] at member
      obtain ⟨part, listed, inside⟩ := List.mem_flatMap.mp member
      exact .head (.alternative listed) (ih part (.alternative listed) inside)
    · have itself := alternatives_of_not_union isUnion
      rw [itself, List.mem_singleton] at member
      rw [member]

/-- The alternatives of targets are tried one target after the other. -/
theorem findings_allAlternatives (follow : Follow) (candidate : Option Json)
    {targets : List Target}
    (each : ∀ target ∈ targets, Findings.anyOf (target.alternatives.map fun alternative =>
        (alternative.check follow candidate).findings) =
      (target.check follow candidate).findings) :
    Findings.anyOf ((allAlternatives targets).map fun alternative =>
        (alternative.check follow candidate).findings) =
      Findings.anyOf (targets.map fun target => (target.check follow candidate).findings) := by
  induction targets with
  | nil => rfl
  | cons target rest ih =>
    obtain ⟨here, later⟩ := List.forall_mem_cons.mp each
    rw [allAlternatives, List.map_append, Findings.anyOf_append, here, ih later]
    rfl

/-- The findings of a target are those of what stands for it among alternatives. -/
theorem findings_alternatives (follow : Follow) (target : Target) (candidate : Option Json) :
    Findings.anyOf (target.alternatives.map fun alternative =>
        (alternative.check follow candidate).findings) =
      (target.check follow candidate).findings := by
  induction target using Target.inductionOnParts with
  | step whole ih =>
    by_cases isUnion : ∃ first rest, whole = .shape (.union first rest)
    · obtain ⟨first, rest, rfl⟩ := isUnion
      have each : ∀ part ∈ first :: rest, Findings.anyOf (part.alternatives.map fun alternative =>
          (alternative.check follow candidate).findings) =
          (part.check follow candidate).findings := fun part member => ih part (.alternative member)
      rw [Target.check, Shape.findings_union, alternatives_union]
      exact findings_allAlternatives follow candidate each
    · rw [alternatives_of_not_union isUnion]
      exact Findings.anyOf_singleton _

/-- A target with unions written flat, in itself and at any depth, any number of them. -/
inductive Flattens : Target → Target → Prop
  /-- A reference stays. -/
  | reference {reference : Reference} : Flattens (.reference reference) (.reference reference)
  /-- A shape of the same form, with parts that are flattened. -/
  | shape {shape shape' : Shape} (alike : shape.Alike Flattens shape') :
      Flattens (.shape shape) (.shape shape')
  /-- A union is replaced by the one over its alternatives, through all unions nested in it, each
  of which is flattened. -/
  | union {first first' : Target} {rest rest' : List Target}
      (each : Forall₂ Flattens (allAlternatives (first :: rest)) (first' :: rest')) :
      Flattens (.shape (.union first rest)) (.shape (.union first' rest'))

/-- A target is flattened if nothing in it is. -/
protected theorem Flattens.refl (target : Target) : target.Flattens target := by
  induction target using Target.inductionOnParts with
  | step whole ih =>
    match whole with
    | .reference _ => exact .reference
    | .shape _ => exact .shape (.of_parts ih)

/-- What holds of a target whenever it holds of everything in it holds of every target. -/
theorem inductionOnContents {motive : Target → Prop}
    (step : ∀ whole, (∀ part, TransGen Target.HasPart whole part → motive part) → motive whole)
    (target : Target) : motive target := by
  suffices inside : ∀ part, target.Contains part → motive part from inside target .refl
  induction target using Target.inductionOnParts with
  | step whole ih =>
    have below (part : Target) (contains : TransGen Target.HasPart whole part) : motive part := by
      obtain ⟨middle, has, further⟩ := TransGen.head'_iff.mp contains
      exact ih middle has part further
    intro part contains
    rcases reflTransGen_iff_eq_or_transGen.mp contains with rfl | properly
    · exact step _ below
    · exact below part properly

/-- Flattening changes no findings, if it changes none of what references are followed to. -/
theorem Flattens.findings_eq {first second : Follow} (answers : ∀ reference candidate,
      (second reference candidate).findings = (first reference candidate).findings)
    {target target' : Target} (flattens : target.Flattens target') (candidate : Option Json) :
    (target'.check second candidate).findings = (target.check first candidate).findings := by
  induction target using inductionOnContents generalizing target' candidate with
  | step whole ih =>
    cases flattens with
    | reference => exact answers _ candidate
    | shape alike =>
      exact alike.findings_eq (fun part part' has related => ih part (.single has) related)
        candidate
    | @union choice choice' rest rest' each =>
      have contains {target : Target} (member : target ∈ allAlternatives (choice :: rest)) :
          TransGen Target.HasPart (.shape (.union choice rest)) target := by
        rw [allAlternatives_eq_flatMap] at member
        obtain ⟨part, listed, inside⟩ := List.mem_flatMap.mp member
        exact .head' (.alternative listed) (contains_of_mem_alternatives inside)
      have same : (choice' :: rest').map (fun target => (target.check second candidate).findings) =
          (allAlternatives (choice :: rest)).map fun target =>
            (target.check first candidate).findings := by
        rw [← List.forall₂_eq_eq_eq, List.forall₂_map_left_iff, List.forall₂_map_right_iff]
        refine (forall₂_with_mem each.flip).imp fun target' target found => ?_
        exact ih target (contains found.2.1) found.2.2 candidate
      rw [Target.check, Shape.findings_union, same, ← alternatives_union, findings_alternatives]

end Target

namespace Store

/-- What a reference stands for in the second store is what it stands for in the first one, with
unions written flat; where it stands for nothing, it does so for the same reason. -/
structure Flattens (first second : Store) : Prop where
  /-- What is resolved. -/
  resolved : ∀ {reference : Reference} {shape : HeldShape}, first.resolve reference = .ok shape →
    ∃ shape', second.resolve reference = .ok shape' ∧
      (Target.shape shape.value).Flattens (.shape shape'.value)
  /-- What is not resolved. -/
  unresolved : ∀ {reference : Reference} {error : RegistryError},
    first.resolve reference = .error error → second.resolve reference = .error error

variable {first second : Store} {shape shape' : Shape}

/-- Following a reference into flattened unions has the same findings, under every bound. -/
theorem Flattens.findings_follow (flattens : first.Flattens second) (bound : Nat)
    (reference : Reference) (candidate : Option Json) :
    (second.follow bound reference candidate).findings =
      (first.follow bound reference candidate).findings := by
  induction bound generalizing reference candidate with
  | zero =>
    cases resolved : first.resolve reference with
    | error error =>
      rw [first.follow_of_unresolved resolved,
        second.follow_of_unresolved (flattens.unresolved resolved)]
    | ok shape =>
      obtain ⟨shape', resolved', _⟩ := flattens.resolved resolved
      rw [first.follow_zero_of_resolved resolved, second.follow_zero_of_resolved resolved']
  | succ bound ih =>
    cases resolved : first.resolve reference with
    | error error =>
      rw [first.follow_of_unresolved resolved,
        second.follow_of_unresolved (flattens.unresolved resolved)]
    | ok shape =>
      obtain ⟨shape', resolved', related⟩ := flattens.resolved resolved
      rw [first.follow_succ_of_resolved resolved, second.follow_succ_of_resolved resolved']
      exact related.findings_eq ih candidate

/-- Evaluation in flattened unions has the same findings. -/
theorem Flattens.findings_evaluate (flattens : first.Flattens second)
    (related : (Target.shape shape).Flattens (.shape shape')) (candidate : Option Json) :
    (second.evaluate shape' candidate).findings = (first.evaluate shape candidate).findings := by
  have within (bound : Nat) : (second.evaluateWithin bound shape' candidate).findings =
      (first.evaluateWithin bound shape candidate).findings :=
    related.findings_eq (flattens.findings_follow bound) candidate
  have exhausted (bound : Nat) : second.evaluateWithin bound shape' candidate =
      .error .exhausted ↔ first.evaluateWithin bound shape candidate = .error .exhausted := by
    rw [← Checked.findings_eq_error_iff, within, Checked.findings_eq_error_iff]
  by_cases ends : first.evaluateWithin (first.bound candidate) shape candidate = .error .exhausted
  · have ends' : second.evaluate shape' candidate = .error .exhausted := by
      by_contra different
      have ended := first.evaluate_eq_of_ends (mt (exhausted _).mpr different)
      exact different ((exhausted _).mpr (ended.symm.trans ends))
    rw [ends', evaluate, ends]
  · rw [second.evaluate_eq_of_ends (mt (exhausted _).mp ends), within, evaluate]

/-- Where unions are written flat, at any places of a graph, evaluation is interrupted for the same
cause, or it returns outcomes that are both valid or both not, and have as many leaves, the same
diagnostics and the same description, whoever describes them. -/
theorem flattening_unions_keeps_reports (flattens : first.Flattens second)
    (related : (Target.shape shape).Flattens (.shape shape')) (candidate : Option Json) :
    (∃ cause, first.evaluate shape candidate = .error cause ∧
      second.evaluate shape' candidate = .error cause) ∨
    ∃ outcome outcome', first.evaluate shape candidate = .ok outcome ∧
      second.evaluate shape' candidate = .ok outcome' ∧
      (outcome' = .valid ↔ outcome = .valid) ∧ outcome'.leafCount = outcome.leafCount ∧
      ∀ (describer : Describer) (root : String),
        describer.diagnostics outcome' root = describer.diagnostics outcome root ∧
        describer.describe outcome' root = describer.describe outcome root := by
  have same := flattens.findings_evaluate related candidate
  cases returned : first.evaluate shape candidate with
  | error cause =>
    rw [returned] at same
    exact .inl ⟨cause, rfl, (Checked.findings_eq_error_iff _ cause).mp same⟩
  | ok outcome =>
    cases returned' : second.evaluate shape' candidate with
    | error cause =>
      rw [returned, returned'] at same
      cases same
    | ok outcome' =>
      rw [returned, returned'] at same
      obtain ⟨valid_iff, located⟩ := Outcome.same_of_found? (Except.ok.inj same)
      have diagnosed (describer : Describer) (root : String) :
          describer.diagnostics outcome' root = describer.diagnostics outcome root := by
        rw [Describer.diagnostics, Describer.diagnostics, Describer.collect_eq_diagnosticsOf,
          Describer.collect_eq_diagnosticsOf, located]
      refine .inr ⟨outcome, outcome', rfl, rfl, valid_iff, ?_, fun describer root => ⟨?_, ?_⟩⟩
      · rw [← Outcome.length_located, ← Outcome.length_located, located]
      · exact diagnosed describer root
      · rw [Describer.describe, Describer.describe, diagnosed]

/-- In chains, the alternatives of the next link may be nested, and so may those of the tag. A chain
with a wrong tag in its second link has the same diagnostics if these unions are written flat. -/
theorem flat_chains_keep_reports :
    let chain : Shape := .object [
      .field "tag" (.shape (.union (.shape (.union (.shape (.kind .string))
        [.shape (.kind .number)])) [.shape .null])),
      .field "next" (.shape (.union (.shape .undefined)
        [.shape (.union (.shape .null) [.reference ⟨0, "Chain"⟩])]))]
    let flat : Shape := .chain 0 (.union (.shape (.kind .string))
      [.shape (.kind .number), .shape .null])
    let next : Json := .object [("tag", .bool true)]
    let candidate : Option Json := some (.object [("tag", .null), ("next", next)])
    let tags : List Outcome := [.wrongKind .string .boolean, .wrongKind .number .boolean,
      .wrongValue (.json .null) (.json (.bool true))]
    let outcome : Outcome := .inProperties [("next", .inAlternatives
      [.wrongValue .undefined (.json next), .inAlternatives [.wrongValue (.json .null) (.json next),
        .inProperties [("tag", .inAlternatives [.inAlternatives (tags.take 2), tags[2]])]]])]
    let outcome' : Outcome := .inProperties [("next", .inAlternatives
      [.wrongValue .undefined (.json next), .wrongValue (.json .null) (.json next),
        .inProperties [("tag", .inAlternatives tags)]])]
    (Store.ofChains chain).evaluate chain candidate = .ok outcome ∧
      (Store.ofChains flat).evaluate flat candidate = .ok outcome' ∧
      outcome'.leafCount = outcome.leafCount ∧
      ({} : Describer).describe outcome' "value" = ({} : Describer).describe outcome "value" := by
  intro chain flat next candidate tags outcome outcome'
  have related : (Target.shape chain).Flattens (.shape flat) := by
    have tag : (Target.shape (.union (.shape (.union (.shape (.kind .string))
          [.shape (.kind .number)])) [.shape .null])).Flattens
        (.shape (.union (.shape (.kind .string)) [.shape (.kind .number), .shape .null])) :=
      .union (List.forall₂_same.mpr fun part _ => .refl part)
    have next : (Target.shape (.union (.shape .undefined)
          [.shape (.union (.shape .null) [.reference ⟨0, "Chain"⟩])])).Flattens
        (.shape (.optional (.reference ⟨0, "Chain"⟩))) :=
      .union (List.forall₂_same.mpr fun part _ => .refl part)
    exact .shape (.object (.cons (.mk tag) (.cons (.mk next) .nil)))
  have flattens : (Store.ofChains chain).Flattens (Store.ofChains flat) := by
    constructor
    · intro reference shape resolved
      rw [eq_of_resolve_ofChains resolved, resolve_ofChains chain, resolved]
      exact ⟨_, rfl, related⟩
    · intro reference error unresolved
      rw [resolve_ofChains chain, unresolved]
      rfl
  have returned : (Store.ofChains chain).evaluate chain candidate = .ok outcome := rfl
  have returned' : (Store.ofChains flat).evaluate flat candidate = .ok outcome' := rfl
  obtain ⟨cause, interrupted, _⟩ | ⟨_, _, gave, gave', _, counted, reported⟩ :=
    flattening_unions_keeps_reports flattens related candidate
  · rw [returned] at interrupted
    cases interrupted
  · obtain rfl := Except.ok.inj (returned.symm.trans gave)
    obtain rfl := Except.ok.inj (returned'.symm.trans gave')
    exact ⟨returned, returned', counted, (reported {} "value").2⟩

end Store

end Conform

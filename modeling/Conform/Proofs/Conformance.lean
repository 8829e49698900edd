import Conform.Proofs.Derivation
/-!
# Evaluation decides conformance

`Store.Conforms` says what candidates conform to a target, as the least relation with one rule for
every kind of shape: there is no order of alternatives in it, no mismatch, and no end of an
evaluation. Wherever evaluation returns, it returns `valid` for exactly the candidates that
conform.
-/

namespace Conform.Store

/-- A candidate conforms to a target. -/
inductive Conforms (store : Store) : Target → Option Json → Prop
  /-- A candidate of the kind. -/
  | kind {expected : Kind} {candidate : Option Json} (same : Kind.of candidate = expected) :
      Conforms store (.shape (.kind expected)) candidate
  /-- A candidate with the value. -/
  | literal {expected : Literal} {candidate : Option Json}
      (accepted : expected.accepts candidate = true) :
      Conforms store (.shape (.literal expected)) candidate
  /-- An object in which every property conforms, be it there or absent. -/
  | object {properties : List Property} {members : List (String × Json)}
      (each : ∀ property ∈ properties,
        Conforms store property.target (property.accessor.select? (.object members))) :
      Conforms store (.shape (.object properties)) (some (.object members))
  /-- An array in which every element conforms to the item. -/
  | array {item : Target} {elements : List Json}
      (each : ∀ element ∈ elements, Conforms store item (some element)) :
      Conforms store (.shape (.array item)) (some (.array elements))
  /-- A candidate that conforms to some alternative. -/
  | union {first alternative : Target} {rest : List Target} {candidate : Option Json}
      (member : alternative ∈ first :: rest) (conforms : Conforms store alternative candidate) :
      Conforms store (.shape (.union first rest)) candidate
  /-- A candidate that a function takes. -/
  | custom {judge : Option Json → Outcome} {candidate : Option Json}
      (judged : judge candidate = .valid) : Conforms store (.shape (.custom judge)) candidate
  /-- A candidate that conforms to the shape inside. -/
  | wrapped {inner : Shape} {candidate : Option Json}
      (conforms : Conforms store (.shape inner) candidate) :
      Conforms store (.shape (.wrapped inner)) candidate
  /-- A candidate that conforms to the root of a finished registry. -/
  | finished {storage : StorageId} {root : Shape} {candidate : Option Json}
      (conforms : Conforms store (.shape root) candidate) :
      Conforms store (.shape (.finished storage root)) candidate
  /-- A candidate that conforms to the shape that is under the key at the moment. -/
  | reference {reference : Reference} {shape : HeldShape} {candidate : Option Json}
      (resolved : store.resolve reference = .ok shape)
      (conforms : Conforms store (.shape shape.value) candidate) :
      Conforms store (.reference reference) candidate

variable {store : Store}

/-- An optional candidate is absent, `null`, or conforms. -/
theorem conforms_optional_iff {target : Target} {candidate : Option Json} :
    store.Conforms (.shape (.optional target)) candidate ↔
      candidate = none ∨ candidate = some .null ∨ store.Conforms target candidate := by
  constructor
  · rintro (_ | _ | _ | _ | ⟨member, conforms⟩)
    simp only [List.mem_cons, List.not_mem_nil, or_false] at member
    rcases member with rfl | rfl | rfl
    · obtain _ | accepted := conforms
      cases candidate with
      | none => exact .inl rfl
      | some value => cases accepted
    · obtain _ | accepted := conforms
      match candidate with
      | some .null => exact .inr (.inl rfl)
      | none | some (.bool _) | some (.number _) | some (.string _) | some (.array _)
      | some (.object _) => cases accepted
    · exact .inr (.inr conforms)
  · rintro (rfl | rfl | conforms)
    · exact .union List.mem_cons_self (.literal rfl)
    · exact .union (.tail _ List.mem_cons_self) (.literal rfl)
    · exact .union (.tail _ (.tail _ List.mem_cons_self)) conforms

/-- What is found valid conforms. -/
theorem conforms_of_yields {target : Target} {candidate : Option Json} {outcome : Outcome}
    (yields : store.Yields target candidate outcome) (valid : outcome = .valid) :
    store.Conforms target candidate := by
  induction yields with
  | kind same => exact .kind same
  | wrongKind _ => cases valid
  | literal accepted => exact .literal accepted
  | wrongValue _ => cases valid
  | object outcomes _ ih =>
    have each := (Outcome.ofProperties_mismatches_eq_valid_iff outcomes _).mp valid
    exact .object fun property member => ih property member (each property member)
  | notObject _ => cases valid
  | array outcomes _ ih =>
    have each := (Outcome.ofItems_mismatches_eq_valid_iff outcomes _).mp valid
    exact .array fun element member => ih element member (each element member)
  | notArray _ => cases valid
  | chosen split _ _ _ _ _ taken => exact .union (split ▸ by simp) (taken rfl)
  | refused _ _ _ _ => cases valid
  | custom => exact .custom valid
  | wrapped _ ih => exact .wrapped (ih valid)
  | finished _ ih => exact .finished (ih valid)
  | reference resolved _ ih => exact .reference resolved (ih valid)

/-- What conforms is found valid, if anything is found at all. -/
theorem valid_of_conforms {target : Target} {candidate : Option Json} {outcome : Outcome}
    (conforms : store.Conforms target candidate)
    (yields : store.Yields target candidate outcome) : outcome = .valid := by
  induction conforms generalizing outcome with
  | kind same =>
    cases yields with
    | kind _ => rfl
    | wrongKind different => exact absurd same different
  | literal accepted =>
    cases yields with
    | literal _ => rfl
    | wrongValue refused => exact absurd (accepted.symm.trans refused) (by decide)
  | object _ ih =>
    cases yields with
    | object outcomes each =>
      apply (Outcome.ofProperties_mismatches_eq_valid_iff outcomes _).mpr
      exact fun property member => ih property member (each property member)
    | notObject different => exact absurd rfl different
  | array _ ih =>
    cases yields with
    | array outcomes each =>
      apply (Outcome.ofItems_mismatches_eq_valid_iff outcomes _).mpr
      exact fun element member => ih element member (each element member)
    | notArray different => exact absurd rfl different
  | union member _ ih =>
    cases yields with
    | chosen => rfl
    | refused outcomes each refused => exact absurd (ih (each _ member)) (refused _ member)
  | custom judged =>
    cases yields
    exact judged
  | wrapped _ ih =>
    cases yields with
    | wrapped inside => exact ih inside
  | finished _ ih =>
    cases yields with
    | finished inside => exact ih inside
  | reference resolved _ ih =>
    cases yields with
    | reference found inside =>
      obtain rfl := Except.ok.inj (resolved.symm.trans found)
      exact ih inside

/-- Wherever evaluation returns an outcome, however a graph refers to itself, the outcome is
`valid` exactly if the candidate conforms. -/
theorem evaluate_eq_valid_iff_conforms (store : Store) {shape : Shape} {candidate : Option Json}
    {outcome : Outcome} (returned : store.evaluate shape candidate = .ok outcome) :
    outcome = .valid ↔ store.Conforms (.shape shape) candidate := by
  have yields := store.evaluate_eq_ok_iff.mp returned
  constructor
  · exact conforms_of_yields yields
  · exact fun conforms => valid_of_conforms conforms yields

/-- A tree conforms to the shape of trees, and what has `null` for a child does not. -/
theorem conforms_tree_and_not_conforms_null :
    Store.ofTrees.Conforms (.shape (.tree 0))
        (some (.object [("children", .array [.object [("children", .array [])]])])) ∧
      ¬ Store.ofTrees.Conforms (.shape (.tree 0))
        (some (.object [("children", .array [.null])])) := by
  have returned : Store.ofTrees.evaluate (.tree 0)
      (some (.object [("children", .array [.object [("children", .array [])]])])) =
        .ok .valid := rfl
  have refused : Store.ofTrees.evaluate (.tree 0) (some (.object [("children", .array [.null])])) =
      .ok (.inProperties [("children", .inItems [(0, .wrongKind .object .null)])]) := rfl
  constructor
  · exact (evaluate_eq_valid_iff_conforms Store.ofTrees returned).mp rfl
  · exact fun conforms =>
      nomatch (evaluate_eq_valid_iff_conforms Store.ofTrees refused).mpr conforms

end Conform.Store

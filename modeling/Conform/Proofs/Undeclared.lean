import Mathlib.Tactic.Choose
import Conform.Proofs.Comparison
import Conform.Proofs.PathAccuracy
import Conform.Proofs.Simulation
/-!
# Undeclared members are ignored

A graph that descends by fields reads no member of an object whose name it does not declare. So two
candidates that differ in nothing but undeclared members, at any depth, are told apart by nothing
that the graph does: evaluation returns for the one if it does for the other, both are valid or
neither is, and the mismatches agree one by one. What does differ is the text of a value that was
found, since it shows all members.
-/

namespace Conform

open List (Forall₂)

/-- Values that differ in nothing but members with other names than the given ones. -/
inductive Json.Similar (names : String → Prop) : Json → Json → Prop
  /-- The same `null`. -/
  | null : Similar names .null .null
  /-- The same truth value. -/
  | bool {value : Bool} : Similar names (.bool value) (.bool value)
  /-- The same number, in the same form: a literal may refuse an integer and accept the nearest
  binary64 number, or accept the one zero and not the other. -/
  | number {value : Number} : Similar names (.number value) (.number value)
  /-- The same string. -/
  | string {value : String} : Similar names (.string value) (.string value)
  /-- As many elements, which are similar one by one. -/
  | array {elements elements' : List Json} (each : Forall₂ (Similar names) elements elements') :
      Similar names (.array elements) (.array elements')
  /-- Under each of the names similar members, or none in both. -/
  | object {members members' : List (String × Json)}
      (each : ∀ name, names name →
        Option.Rel (Similar names) (members.lookup name) (members'.lookup name)) :
      Similar names (.object members) (.object members')

/-- Candidates are similar if both are absent, or similar values. -/
abbrev Json.Similar? (names : String → Prop) : Option Json → Option Json → Prop :=
  Option.Rel (Json.Similar names)

/-- A value without an object in it. -/
inductive Json.Objectless : Json → Prop
  /-- No object is in `null`. -/
  | null : Objectless .null
  /-- No object is in a truth value. -/
  | bool {value : Bool} : Objectless (.bool value)
  /-- No object is in a number. -/
  | number {value : Number} : Objectless (.number value)
  /-- No object is in a string. -/
  | string {value : String} : Objectless (.string value)
  /-- No object is in any element of an array. -/
  | array {elements : List Json} (each : ∀ element ∈ elements, Objectless element) :
      Objectless (.array elements)

/-- A literal without an object in it. -/
def Literal.Objectless : Literal → Prop
  | .json value => value.Objectless
  | _ => True

namespace Json

variable {names : String → Prop}

/-- Similar elements compare in the same way to other elements, if similar values do. -/
theorem sameElements_eq_of_similar {expected elements elements' : List Json}
    (each : ∀ value ∈ expected, ∀ {element element' : Json}, element.Similar names element' →
      value.same element' = value.same element)
    (similar : Forall₂ (Similar names) elements elements') :
    sameElements expected elements' = sameElements expected elements := by
  induction similar generalizing expected with
  | nil => rfl
  | cons first _ ih =>
    cases expected with
    | nil => rfl
    | cons value rest =>
      obtain ⟨head, others⟩ := List.forall_mem_cons.mp each
      rw [sameElements, sameElements, head first, ih others]

/-- A value without an object in it is the same as both of two similar values, or as neither. -/
theorem same_eq_of_similar {expected : Json} (objectless : expected.Objectless)
    {value value' : Json} (similar : value.Similar names value') :
    expected.same value' = expected.same value := by
  induction objectless generalizing value value' with
  | null | bool | number | string => cases similar <;> rfl
  | array _ ih =>
    cases similar with
    | array each =>
      rw [same, same]
      exact sameElements_eq_of_similar ih each
    | _ => rfl

namespace Similar?

variable {candidate candidate' : Option Json}

/-- Similar candidates have the same kind. -/
theorem kind_eq (similar : Similar? names candidate candidate') :
    Kind.of candidate' = Kind.of candidate := by
  cases similar with
  | none => rfl
  | some similar => cases similar <;> rfl

/-- A literal without an object in it accepts both of two similar candidates, or neither. -/
theorem accepts_eq {expected : Literal} (objectless : expected.Objectless)
    (similar : Similar? names candidate candidate') :
    expected.accepts candidate' = expected.accepts candidate := by
  cases similar with
  | none => rfl
  | some similar =>
    cases expected with
    | json value => exact same_eq_of_similar objectless similar
    | _ => rfl

/-- What is similar to an object is an object, with similar members. -/
theorem exists_members {members : List (String × Json)}
    (similar : Similar? names (some (.object members)) candidate') :
    ∃ members', candidate' = some (.object members') ∧ ∀ name, names name →
      Similar? names (members.lookup name) (members'.lookup name) := by
  cases similar with
  | some similar =>
    cases similar with
    | object each => exact ⟨_, rfl, each⟩

/-- What is similar to an array is an array, with similar elements. -/
theorem exists_elements {elements : List Json}
    (similar : Similar? names (some (.array elements)) candidate') :
    ∃ elements', candidate' = some (.array elements') ∧
      Forall₂ (Similar names) elements elements' := by
  cases similar with
  | some similar =>
    cases similar with
    | array each => exact ⟨_, rfl, each⟩

end Similar?

end Json

/-- Mismatches in the same respect of the same expectation; candidates of another kind have the same
kind. -/
inductive Mismatch.Agrees : Mismatch → Mismatch → Prop
  /-- The same kind in the place of the same kind. -/
  | kind {expected actual : Kind} : Agrees (.kind expected actual) (.kind expected actual)
  /-- Some value in the place of the same value. -/
  | value {expected actual actual' : Literal} :
      Agrees (.value expected actual) (.value expected actual')

/-- Diagnostics with the same path, in the same respect, with the same text of what was expected; in
respect of the kind, also with the same text of what was found. -/
structure Diagnostic.Agrees (diagnostic diagnostic' : Diagnostic) : Prop where
  /-- They are about the same place. -/
  path : diagnostic'.path = diagnostic.path
  /-- They are about the same respect. -/
  aspect : diagnostic'.aspect = diagnostic.aspect
  /-- They ask for the same. -/
  expected : diagnostic'.expected = diagnostic.expected
  /-- They name the same kind. -/
  actual : diagnostic.aspect = .type → diagnostic'.actual = diagnostic.actual

/-- Diagnostics of mismatches that agree, agree. -/
theorem Mismatch.Agrees.diagnostic {mismatch mismatch' : Mismatch}
    (agrees : mismatch.Agrees mismatch') (describer : Describer) (path : Path) :
    (describer.diagnostic path mismatch).Agrees (describer.diagnostic path mismatch') := by
  cases agrees with
  | kind => exact ⟨rfl, rfl, rfl, fun _ => rfl⟩
  | value => exact ⟨rfl, rfl, rfl, nofun⟩

namespace Outcome

/-- Outcomes that are valid together, and have mismatches at the same places that agree. -/
abbrev Agrees : Outcome → Outcome → Prop := Compares (.pointwise Mismatch.Agrees)

/-- An outcome for another kind agrees with itself. -/
theorem Agrees.wrongKind {expected actual : Kind} :
    (Outcome.wrongKind expected actual).Agrees (.wrongKind expected actual) :=
  ⟨.rfl, .cons ⟨rfl, .kind⟩ .nil⟩

/-- Outcomes for another value agree, whatever the value. -/
theorem Agrees.wrongValue {expected actual actual' : Literal} :
    (Outcome.wrongValue expected actual).Agrees (.wrongValue expected actual') :=
  ⟨⟨nofun, nofun⟩, .cons ⟨rfl, .value⟩ .nil⟩

end Outcome

/-- A node that reads no members but those of the given names: no function judges, no literal has an
object in it, and every property is the member of its name, which is one of the given ones. -/
def Target.ReadsOnly (names : String → Prop) : Target → Prop
  | .shape (.custom _) => False
  | .shape (.literal expected) => expected.Objectless
  | .shape (.object properties) => ∀ property ∈ properties,
    property = .field property.name property.target ∧ names property.name
  | _ => True

namespace Store

/-- A property of a name is declared in the graph of a target. -/
def Declares (store : Store) (target : Target) (name : String) : Prop :=
  ∃ properties, store.Reaches target (.shape (.object properties)) ∧
    ∃ property ∈ properties, property.name = name

variable {store : Store}

/-- A plain graph without objects in its literals reads no members but declared ones. -/
theorem readsOnly_of_plain {target : Target}
    (plain : ∀ node, store.Reaches target node → node.Plain)
    (objectless : ∀ expected, store.Reaches target (.shape (.literal expected)) →
      expected.Objectless) :
    ∀ node, store.Reaches target node → node.ReadsOnly (store.Declares target) := by
  intro node reaches
  have plain := plain node reaches
  match node with
  | .shape (.custom _) => exact plain
  | .shape (.literal expected) => exact objectless expected reaches
  | .shape (.object properties) =>
    exact fun property member => ⟨plain property member, properties, reaches, property, member, rfl⟩
  | .reference _ | .shape (.kind _) | .shape (.array _) | .shape (.union _ _)
  | .shape (.wrapped _) | .shape (.finished _ _) => trivial

/-- What a graph yields that reads no members but those of some names, it yields alike for every
candidate that is similar as to these names. -/
theorem exists_agrees_of_yields {names : String → Prop} {target : Target}
    {candidate candidate' : Option Json} {outcome : Outcome}
    (yields : store.Yields target candidate outcome)
    (reads : ∀ node, store.Reaches target node → node.ReadsOnly names)
    (similar : Json.Similar? names candidate candidate') :
    ∃ outcome', store.Yields target candidate' outcome' ∧ outcome.Agrees outcome' := by
  induction yields generalizing candidate' with
  | kind same => exact ⟨_, .kind (similar.kind_eq.trans same), .valid⟩
  | wrongKind different =>
    rw [← similar.kind_eq] at different ⊢
    exact ⟨_, .wrongKind different, .wrongKind⟩
  | literal accepted =>
    have same := similar.accepts_eq (reads _ .refl)
    exact ⟨_, .literal (same.trans accepted), .valid⟩
  | wrongValue refused =>
    have same := similar.accepts_eq (reads _ .refl)
    exact ⟨_, .wrongValue (same.trans refused), .wrongValue⟩
  | @object properties members outcomes _ ih =>
    obtain ⟨members', rfl, each⟩ := similar.exists_members
    have found : ∀ property ∈ properties, ∃ outcome', store.Yields property.target
        (property.accessor.select? (.object members')) outcome' ∧
        (outcomes property).Agrees outcome' := by
      intro property member
      obtain ⟨field, named⟩ := reads _ .refl property member
      apply ih property member (Leads.throughout (.part (.property member)) reads)
      rw [Property.select?_of_eq_field field, Property.select?_of_eq_field field]
      exact each property.name named
    choose! outcomes' yields' agrees using found
    refine ⟨_, .object outcomes' yields', .ofProperties _ _ (List.forall₂_same.mpr ?_)⟩
    exact fun property member => ⟨rfl, agrees property member⟩
  | notObject different =>
    rw [← similar.kind_eq] at different ⊢
    exact ⟨_, .notObject different, .wrongKind⟩
  | @array item elements outcomes _ ih =>
    obtain ⟨elements', rfl, each⟩ := similar.exists_elements
    have found : Forall₂ (fun element element' => ∃ outcome',
        store.Yields item (some element') outcome' ∧ (outcomes element).Agrees outcome')
        elements elements' := by
      refine (forall₂_with_mem each).imp fun element element' here => ?_
      exact ih element here.1 (Leads.throughout (.part .item) reads) (.some here.2.2)
    let outcomes' (element' : Json) : Outcome := store.outcomeOf item (some element')
    refine ⟨_, .array outcomes' ?_, .ofItems outcomes outcomes' (found.imp ?_)⟩
    · intro element' member'
      obtain ⟨_, _, _, yields', _⟩ := exists_matched_of_mem found member'
      exact yields_outcomeOf yields'
    · rintro element element' ⟨outcome', yields', agrees⟩
      have same : outcomes' element' = outcome' := outcomeOf_eq yields'
      rwa [same]
  | notArray different =>
    rw [← similar.kind_eq] at different ⊢
    exact ⟨_, .notArray different, .wrongKind⟩
  | @chosen first choice rest before after _ split outcomes _ refused _ ih taken =>
    have listed {target : Target} (member : target ∈ before ++ choice :: after) :
        target ∈ first :: rest := split ▸ member
    have found : ∀ target ∈ before, ∃ outcome', store.Yields target candidate' outcome' ∧
        (outcomes target).Agrees outcome' := fun target member =>
      ih target member (Leads.throughout
        (.part (.alternative (listed (List.mem_append_left _ member)))) reads) similar
    choose! outcomes' yields' agrees using found
    obtain ⟨outcome', accepts, same⟩ :=
      taken (Leads.throughout (.part (.alternative (listed (by simp)))) reads) similar
    obtain rfl := same.valid_iff.mpr rfl
    refine ⟨_, .chosen split outcomes' yields' ?_ accepts, .valid⟩
    exact fun target member valid =>
      refused target member ((agrees target member).valid_iff.mp valid)
  | @refused first rest _ outcomes _ refused ih =>
    have found : ∀ target ∈ first :: rest, ∃ outcome', store.Yields target candidate' outcome' ∧
        (outcomes target).Agrees outcome' := fun target member =>
      ih target member (Leads.throughout (.part (.alternative member)) reads) similar
    choose! outcomes' yields' agrees using found
    refine ⟨_, .refused outcomes' yields' ?_, .inAlternatives ?_⟩
    · exact fun target member valid =>
        refused target member ((agrees target member).valid_iff.mp valid)
    · rw [List.forall₂_map_left_iff, List.forall₂_map_right_iff]
      exact List.forall₂_same.mpr agrees
  | custom => exact (reads _ .refl).elim
  | wrapped _ ih =>
    obtain ⟨_, yields', agrees⟩ := ih (Leads.throughout (.part .inner) reads) similar
    exact ⟨_, .wrapped yields', agrees⟩
  | finished _ ih =>
    obtain ⟨_, yields', agrees⟩ := ih (Leads.throughout (.part .root) reads) similar
    exact ⟨_, .finished yields', agrees⟩
  | reference resolved _ ih =>
    obtain ⟨_, yields', agrees⟩ := ih (Leads.throughout (.entry resolved) reads) similar
    exact ⟨_, .reference resolved yields', agrees⟩

/-- Let a graph descend by field and index only, and let no literal in it have an object in it.
Where evaluation returns for a candidate, it returns for every other one that differs in members
with undeclared names only, at any depth. Both are valid or neither is, and their diagnostics agree
one by one: in the path, in the respect, in the text of what was expected, and in respect of the
kind also in the text of what was found. -/
theorem undeclared_members_are_ignored {shape : Shape}
    (plain : ∀ node, store.Reaches (.shape shape) node → node.Plain)
    (objectless : ∀ expected, store.Reaches (.shape shape) (.shape (.literal expected)) →
      expected.Objectless)
    {candidate candidate' : Option Json}
    (similar : Json.Similar? (store.Declares (.shape shape)) candidate candidate')
    {outcome : Outcome} (returned : store.evaluate shape candidate = .ok outcome) :
    ∃ outcome', store.evaluate shape candidate' = .ok outcome' ∧
      (outcome' = .valid ↔ outcome = .valid) ∧ ∀ (describer : Describer) (root : String),
        Forall₂ Diagnostic.Agrees
          (((describer.diagnostics outcome root).map Diagnostics.toList).getD [])
          (((describer.diagnostics outcome' root).map Diagnostics.toList).getD []) := by
  have yields := store.evaluate_eq_ok_iff.mp returned
  obtain ⟨outcome', yields', agrees⟩ :=
    exists_agrees_of_yields yields (readsOnly_of_plain plain objectless) similar
  refine ⟨outcome', store.evaluate_eq_ok_iff.mpr yields', agrees.valid_iff, ?_⟩
  intro describer root
  rw [describer.toList_diagnostics, describer.toList_diagnostics, Describer.diagnosticsOf,
    Describer.diagnosticsOf, List.forall₂_map_left_iff, List.forall₂_map_right_iff]
  refine List.Forall₂.imp ?_ agrees.located
  rintro leaf leaf' ⟨place, agrees⟩
  rw [place]
  exact agrees.diagnostic describer _

/-- The names that a chain declares. -/
theorem eq_of_declares_chain {tag : Shape} (leaf : ∀ part, ¬ (Target.shape tag).HasPart part)
    {name : String} (declares : (ofChains (.chain 0 tag)).Declares (.shape (.chain 0 tag)) name) :
    name = "tag" ∨ name = "next" := by
  obtain ⟨properties, reaches, property, member, rfl⟩ := declares
  rcases reaches_chain leaf reaches with same | same | same | same | same | same
  · cases same
    simp only [List.mem_cons, List.not_mem_nil, or_false] at member
    exact member.imp (congrArg Property.name) (congrArg Property.name)
  · exact absurd (same ▸ .property member) (leaf property.target)
  all_goals cases same

/-- Where a tag is missing in a chain and another one is wrong, members that are not declared are
ignored, but for one text: what was found in the place of the next link is shown with them. -/
theorem undeclared_members_of_chain_are_ignored :
    let chain : Shape := .chain 0 (.literal (.json (.string "link")))
    let next : Json := .object [("note", .null), ("tag", .bool true)]
    let next' : Json := .object [("tag", .bool true)]
    let outcome : Outcome := .inProperties [
      ("tag", .wrongValue (.json (.string "link")) .undefined),
      ("next", .inAlternatives [.wrongValue .undefined (.json next),
        .wrongValue (.json .null) (.json next),
        .inProperties [("tag", .wrongValue (.json (.string "link")) (.json (.bool true)))]])]
    (Store.ofChains chain).evaluate chain (some (.object [("next", next)])) = .ok outcome ∧
      ∃ outcome', (Store.ofChains chain).evaluate chain
          (some (.object [("id", .string "first"), ("next", next')])) = .ok outcome' ∧
        Forall₂ Diagnostic.Agrees
          (((({} : Describer).diagnostics outcome "value").map Diagnostics.toList).getD [])
          (((({} : Describer).diagnostics outcome' "value").map Diagnostics.toList).getD []) := by
  intro chain next next' outcome
  have leaf (part : Target) : ¬ (Target.shape (.literal (.json (.string "link")))).HasPart part :=
    nofun
  have plain (node : Target) (reaches : (ofChains chain).Reaches (.shape chain) node) :
      node.Plain := by
    rcases reaches_chain leaf reaches with rfl | rfl | rfl | rfl | rfl | rfl
    · intro property member
      simp only [List.mem_cons, List.not_mem_nil, or_false] at member
      rcases member with rfl | rfl <;> rfl
    all_goals trivial
  have objectless (expected : Literal)
      (reaches : (ofChains chain).Reaches (.shape chain) (.shape (.literal expected))) :
      expected.Objectless := by
    rcases reaches_chain leaf reaches with same | same | same | same | same | same <;> cases same
    · exact .string
    · trivial
    · exact .null
  have similar : Json.Similar? ((ofChains chain).Declares (.shape chain))
      (some (.object [("next", next)]))
      (some (.object [("id", .string "first"), ("next", next')])) := by
    have next : next.Similar ((ofChains chain).Declares (.shape chain)) next' := by
      refine .object fun name declares => ?_
      rcases eq_of_declares_chain leaf declares with rfl | rfl
      · exact .some .bool
      · exact .none
    refine .some (.object fun name declares => ?_)
    rcases eq_of_declares_chain leaf declares with rfl | rfl
    · exact .none
    · exact .some next
  have returned : (ofChains chain).evaluate chain (some (.object [("next", next)])) =
      .ok outcome := rfl
  obtain ⟨outcome', returned', _, agree⟩ :=
    undeclared_members_are_ignored plain objectless similar returned
  exact ⟨returned, outcome', returned', agree {} "value"⟩

end Store

end Conform

import Conform.Proofs.Comparison
import Conform.Proofs.EntryPoints
import Conform.Proofs.Unbroken
/-!
# The lines of a report

A report is the lines of its diagnostics, joined by line feeds. Where the names and values in a
graph have no line feed, a diagnostic has one only in what was found. So a report can be split into
its diagnostics exactly if no found text has a line feed, and a candidate without line feeds in its
strings and keys cannot prevent it. Any other candidate may: the text of a found string stands in
the report as it is, and a line feed in it begins a line that no diagnostic has.
-/

namespace Conform

/-- A node whose names and values have no line feed, and no function that judges. -/
def Target.Unbroken : Target → Prop
  | .shape (.custom _) => False
  | .shape (.literal expected) => Text.Unbroken expected.text
  | .shape (.object properties) => ∀ property ∈ properties, Text.Unbroken property.name
  | _ => True

/-- A candidate is absent, or some steps lead to it in another one. -/
def Json.StandsIn (found candidate : Option Json) : Prop :=
  found = none ∨ ∃ steps, candidate.bind (Json.at? steps) = found

namespace Json.StandsIn

/-- A candidate stands in itself. -/
theorem refl (candidate : Option Json) : StandsIn candidate candidate := by
  refine .inr ⟨[], ?_⟩
  cases candidate <;> rfl

/-- What stands in a part stands in the whole. -/
theorem trans {found part candidate : Option Json} (inner : StandsIn found part)
    (outer : StandsIn part candidate) : StandsIn found candidate := by
  rcases inner with absent | ⟨steps, rfl⟩
  · exact .inl absent
  · rcases outer with rfl | ⟨further, rfl⟩
    · exact .inl rfl
    · cases candidate with
      | none => exact .inl rfl
      | some value => exact .inr ⟨further ++ steps, Json.at?_append value further steps⟩

/-- What an accessor selects stands in the value. -/
theorem select? (accessor : Accessor) (value : Json) :
    StandsIn (accessor.select? value) (some value) := by
  cases selected : accessor.select? value with
  | none => exact .inl rfl
  | some part =>
    obtain ⟨steps, reached⟩ := accessor.inside value part selected
    exact .inr ⟨steps, reached⟩

/-- An element stands in its array. -/
theorem element {elements : List Json} {element : Json} (member : element ∈ elements) :
    StandsIn (some element) (some (.array elements)) := by
  obtain ⟨position, found⟩ := List.getElem?_of_mem member
  refine .inr ⟨[.index position], ?_⟩
  change (elements[position]?).bind (at? []) = some element
  rw [found]
  rfl

end Json.StandsIn

/-- A mismatch shows no line feed but in what was found, and that stands in the candidate. -/
def Mismatch.Shows (candidate : Option Json) : Mismatch → Prop
  | .kind _ _ => True
  | .value expected actual => Text.Unbroken expected.text ∧
    ∃ found, Json.StandsIn found candidate ∧ actual = .of found

/-- Every mismatch in an outcome shows no line feed but in what was found, and neither do the steps
to it. -/
def Outcome.Shows (candidate : Option Json) (outcome : Outcome) : Prop :=
  ∀ entry ∈ outcome.located, (∀ step ∈ entry.1, Text.Unbroken step.text) ∧ entry.2.Shows candidate

namespace Outcome

/-- A mismatch of kind shows nothing that was found. -/
theorem shows_wrongKind (candidate : Option Json) (expected actual : Kind) :
    Shows candidate (.wrongKind expected actual) := by
  intro entry member
  obtain rfl := List.mem_singleton.mp member
  exact ⟨nofun, trivial⟩

/-- What is shown for a part is shown for the whole, one step further down. -/
theorem shows_of_mem_afterStep {part candidate : Option Json} {step : Step} {outcome : Outcome}
    (unbroken : Text.Unbroken step.text) (inside : Json.StandsIn part candidate)
    (shows : Shows part outcome) {entry : List Step × Mismatch}
    (member : entry ∈ afterStep step outcome.located) :
    (∀ step ∈ entry.1, Text.Unbroken step.text) ∧ entry.2.Shows candidate := by
  obtain ⟨⟨steps, mismatch⟩, listed, rfl⟩ := List.mem_map.mp member
  obtain ⟨named, shown⟩ := shows (steps, mismatch) listed
  refine ⟨List.forall_mem_cons.mpr ⟨unbroken, named⟩, ?_⟩
  cases mismatch with
  | kind _ _ => trivial
  | value expected actual =>
    obtain ⟨written, found, stands, same⟩ := shown
    exact ⟨written, found, stands.trans inside, same⟩

end Outcome

namespace Store

variable {store : Store} {target : Target} {candidate : Option Json} {outcome : Outcome}

/-- What a graph yields whose names and values have no line feed shows none but in what was
found. -/
theorem shows_of_yields (yields : store.Yields target candidate outcome)
    (unbroken : ∀ node, store.Reaches target node → node.Unbroken) : outcome.Shows candidate := by
  induction yields with
  | kind _ => exact nofun
  | wrongKind _ => exact Outcome.shows_wrongKind _ _ _
  | literal _ => exact nofun
  | @wrongValue expected candidate _ =>
    intro entry member
    obtain rfl := List.mem_singleton.mp member
    exact ⟨nofun, unbroken _ .refl, candidate, .refl candidate, rfl⟩
  | @object properties members outcomes _ ih =>
    intro entry member
    rw [Outcome.located_ofProperties] at member
    obtain ⟨property, listed, inside⟩ := List.mem_flatMap.mp member
    have named : Text.Unbroken property.name := unbroken _ .refl property listed
    have shows := ih property listed (Leads.throughout (.part (.property listed)) unbroken)
    refine Outcome.shows_of_mem_afterStep ?_ (.select? property.accessor _) shows inside
    exact (Text.unbroken_append _ _).mpr ⟨by decide, named⟩
  | notObject _ => exact Outcome.shows_wrongKind _ _ _
  | @array item elements outcomes _ ih =>
    intro entry member
    rw [Outcome.located_ofItems] at member
    obtain ⟨⟨element, position⟩, numbered, inside⟩ := List.mem_flatMap.mp member
    have listed : element ∈ elements := List.fst_mem_of_mem_zipIdx numbered
    have shows := ih element listed (Leads.throughout (.part .item) unbroken)
    exact Outcome.shows_of_mem_afterStep (Step.unbroken_index position) (.element listed) shows
      inside
  | notArray _ => exact Outcome.shows_wrongKind _ _ _
  | chosen _ _ _ _ _ _ => exact nofun
  | @refused first rest candidate outcomes _ _ ih =>
    intro entry member
    rw [Outcome.located_inAlternatives] at member
    obtain ⟨part, listed, inside⟩ := List.mem_flatMap.mp member
    obtain ⟨alternative, among, rfl⟩ := List.mem_map.mp listed
    have shows := ih alternative among (Leads.throughout (.part (.alternative among)) unbroken)
    exact shows entry inside
  | custom => exact (unbroken _ .refl).elim
  | wrapped _ ih => exact ih (Leads.throughout (.part .inner) unbroken)
  | finished _ ih => exact ih (Leads.throughout (.part .root) unbroken)
  | reference resolved _ ih => exact ih (Leads.throughout (.entry resolved) unbroken)

end Store

namespace Describer

variable (describer : Describer) {root : String} {candidate : Option Json}

/-- What stands in a candidate without line feeds is written without any. -/
theorem unbroken_foundText {found : Option Json} (stands : Json.StandsIn found candidate)
    (clean : ∀ value, candidate = some value → value.Unbroken) :
    Text.Unbroken (describer.foundText (.of found)) := by
  apply describer.unbroken_fit
  cases found with
  | none => exact (by decide : Text.Unbroken "undefined")
  | some part =>
    obtain ⟨⟨⟩⟩ | ⟨steps, reached⟩ := stands
    obtain ⟨value, rfl, reached⟩ := Option.bind_eq_some_iff.mp reached
    exact unbroken_outline (clean value rfl steps part reached)

/-- Steps with unbroken texts make a path with an unbroken text. -/
theorem unbroken_pathText (named : Text.Unbroken root) {steps : List Step}
    (way : ∀ step ∈ steps, Text.Unbroken step.text) :
    Text.Unbroken (Path.text ⟨root, steps⟩) := by
  have further : Text.Unbroken (Path.stepsText steps) := by
    induction steps with
    | nil => decide
    | cons step rest ih =>
      obtain ⟨here, later⟩ := List.forall_mem_cons.mp way
      exact (Text.unbroken_append _ _).mpr ⟨here, ih later⟩
  exact (Text.unbroken_append _ _).mpr ⟨named, further⟩

/-- The line of a diagnostic is unbroken exactly if what was found is written without a line
feed. -/
theorem unbroken_text_diagnostic_iff (named : Text.Unbroken root) {steps : List Step}
    {mismatch : Mismatch} (way : ∀ step ∈ steps, Text.Unbroken step.text)
    (shows : mismatch.Shows candidate) :
    Text.Unbroken (describer.diagnostic ⟨root, steps⟩ mismatch).text ↔
      ∀ expected actual, mismatch = .value expected actual →
        Text.Unbroken (describer.foundText actual) := by
  have path := unbroken_pathText named way
  have between : Text.Unbroken ": expected " ∧ Text.Unbroken " \"" ∧
      Text.Unbroken "\" but was " := by decide
  cases mismatch with
  | kind expected actual =>
    have aspect : Text.Unbroken Aspect.type.name := by decide
    simp only [diagnostic, Diagnostic.text, Text.unbroken_append, path, between, aspect,
      expected.unbroken_name, actual.unbroken_name, reduceCtorEq, false_imp_iff, implies_true,
      and_self]
  | value expected actual =>
    have aspect : Text.Unbroken Aspect.value.name := by decide
    have line : Text.Unbroken (describer.diagnostic ⟨root, steps⟩ (.value expected actual)).text ↔
        Text.Unbroken (describer.foundText actual) := by
      simp only [diagnostic, Diagnostic.text, Text.unbroken_append, path, between, aspect,
        shows.1, true_and, and_self]
    rw [line]
    constructor
    · rintro written _ _ ⟨⟩
      exact written
    · exact fun all => all expected actual rfl

end Describer

/-- A node without a function explains what it refuses. -/
theorem Target.Unbroken.explains {node : Target} (unbroken : node.Unbroken) : node.Explains := by
  match node with
  | .shape (.custom _) => exact unbroken.elim
  | .reference _ | .shape (.kind _) | .shape (.literal _) | .shape (.object _) | .shape (.array _)
  | .shape (.union _ _) | .shape (.wrapped _) | .shape (.finished _ _) => trivial

/-- For a graph whose names and values have no line feed, and which has no function, the report on a
candidate that is not valid has as many diagnostics as there are leaves in the outcome. It is split
into their lines exactly if no mismatch of value has a line feed in the text of what was found,
which is certain if no string and no key in the candidate has one. -/
theorem Store.report_splits_into_diagnostics_iff (store : Store) {shape : Shape}
    {candidate : Option Json} {outcome : Outcome}
    (unbroken : ∀ node, store.Reaches (.shape shape) node → node.Unbroken)
    (returned : store.evaluate shape candidate = .ok outcome) (invalid : outcome ≠ .valid)
    (describer : Describer) {root : String} (named : Text.Unbroken root) :
    ∃ diagnostics, describer.diagnostics outcome root = some diagnostics ∧
      diagnostics.lines.length = outcome.leafCount ∧
      (Text.lines (describer.describe outcome root) = diagnostics.lines ↔
        ∀ steps expected actual, (steps, Mismatch.value expected actual) ∈ outcome.located →
          Text.Unbroken (describer.foundText actual)) ∧
      ((∀ value, candidate = some value → value.Unbroken) →
        Text.lines (describer.describe outcome root) = diagnostics.lines) := by
  have yields := store.evaluate_eq_ok_iff.mp returned
  have shows : outcome.Shows candidate := shows_of_yields yields unbroken
  have explained := explained_of_yields yields fun node reaches => (unbroken node reaches).explains
  obtain ⟨diagnostics, found⟩ : ∃ diagnostics,
      describer.diagnostics outcome root = some diagnostics := by
    rw [← Option.ne_none_iff_exists', ne_eq, describer.diagnostics_eq_none_iff]
    exact explained.resolve_left invalid
  have listed := describer.toList_diagnostics outcome root
  rw [found, Option.map_some, Option.getD_some] at listed
  have splits_iff : Text.lines (describer.describe outcome root) = diagnostics.lines ↔
      ∀ steps expected actual, (steps, Mismatch.value expected actual) ∈ outcome.located →
        Text.Unbroken (describer.foundText actual) := by
    have described : describer.describe outcome root = "\n".intercalate diagnostics.lines := by
      rw [Describer.describe, found]
      rfl
    have nonempty : diagnostics.lines ≠ [] := List.cons_ne_nil _ _
    have texts : diagnostics.lines = outcome.located.map fun entry =>
        (describer.diagnostic ⟨root, entry.1⟩ entry.2).text := by
      rw [Diagnostics.lines, listed, Describer.diagnosticsOf, List.map_map]
      rfl
    rw [described, Text.lines_intercalate_eq_iff nonempty, texts, List.forall_mem_map]
    have each (entry : List Step × Mismatch) (member : entry ∈ outcome.located) :=
      describer.unbroken_text_diagnostic_iff named (shows entry member).1 (shows entry member).2
    constructor
    · intro all steps expected actual member
      exact (each _ member).mp (all _ member) expected actual rfl
    · rintro all ⟨steps, mismatch⟩ member
      refine (each _ member).mpr fun expected actual same => all steps expected actual ?_
      rwa [← same]
  refine ⟨diagnostics, found, ?_, splits_iff, ?_⟩
  · rw [Diagnostics.lines, List.length_map]
    exact describer.length_of_diagnostics outcome root found
  · intro clean
    refine splits_iff.mpr fun steps expected actual member => ?_
    obtain ⟨_, found, stands, rfl⟩ := (shows _ member).2
    exact describer.unbroken_foundText stands clean

/-- A link with a wrong tag and a number in the place of the next link has four mismatches, and the
report on it has four lines. -/
theorem Store.report_on_link_has_four_lines :
    let chain : Shape := .chain 0 (.literal (.json (.string "open")))
    let next : Json := .number (.integer ⟨7, by decide⟩)
    let link : Json := .object [("next", next), ("tag", .string "shut")]
    let outcome : Outcome := .inProperties [
      ("tag", .wrongValue (.json (.string "open")) (.json (.string "shut"))),
      ("next", .inAlternatives [.wrongValue .undefined (.json next),
        .wrongValue (.json .null) (.json next), .wrongKind .object .number])]
    (Store.ofChains chain).evaluate chain (some link) = .ok outcome ∧ link.Unbroken ∧
      ∃ diagnostics, ({} : Describer).diagnostics outcome "value" = some diagnostics ∧
        diagnostics.lines.length = 4 ∧
        Text.lines (({} : Describer).describe outcome "value") = diagnostics.lines := by
  intro chain next link outcome
  have unbroken (node : Target) (reaches : (Store.ofChains chain).Reaches (.shape chain) node) :
      node.Unbroken := by
    have leaf (part : Target) :
        ¬ (Target.shape (.literal (.json (.string "open")))).HasPart part := nofun
    rcases reaches_chain leaf reaches with rfl | rfl | rfl | rfl | rfl | rfl
    · intro property member
      rcases List.mem_pair.mp member with rfl | rfl
      · exact (by decide : Text.Unbroken "tag")
      · exact (by decide : Text.Unbroken "next")
    · exact (by decide : Text.Unbroken "open")
    · trivial
    · exact (by decide : Text.Unbroken "undefined")
    · exact (by decide : Text.Unbroken "null")
    · trivial
  have returned : (Store.ofChains chain).evaluate chain (some link) = .ok outcome := rfl
  have clean : link.Unbroken := by
    apply Json.Throughout.object
    · intro member listed
      rcases List.mem_pair.mp listed with rfl | rfl
      · exact (by decide : Text.Unbroken "next")
      · exact (by decide : Text.Unbroken "tag")
    · intro member listed
      rcases List.mem_pair.mp listed with rfl | rfl
      · exact .of_parts trivial nofun
      · exact .of_parts (by decide : Text.Unbroken "shut") nofun
  obtain ⟨diagnostics, found, counted, _, splits⟩ :=
    (Store.ofChains chain).report_splits_into_diagnostics_iff unbroken returned nofun {}
      (by decide : Text.Unbroken "value")
  refine ⟨returned, clean, diagnostics, found, counted, splits ?_⟩
  intro value same
  exact Option.some.inj same ▸ clean

/-- A found string may have a line that looks like one of a diagnostic: where one mismatch was
found, there is a second line in the report, although no name and no value in the graph has a line
feed. -/
theorem Store.found_string_makes_up_line :
    let shape : Shape := .literal (.json (.string "open"))
    let found : String := "shut\nvalue: expected type \"number\" but was null"
    let outcome : Outcome := .wrongValue (.json (.string "open")) (.json (.string found))
    let describer : Describer := { maxWidth := 60 }
    (∀ node, ({} : Store).Reaches (.shape shape) node → node.Unbroken) ∧ Text.Unbroken "value" ∧
      ({} : Store).evaluate shape (some (.string found)) = .ok outcome ∧ outcome.leafCount = 1 ∧
      Text.lines (describer.describe outcome "value") =
        ["value: expected value \"open\" but was shut",
          (describer.diagnostic ⟨"value", []⟩ (.kind .number .null)).text] := by
  intro shape found outcome describer
  refine ⟨?_, by decide, rfl, rfl, by decide⟩
  intro node reaches
  rcases Relation.ReflTransGen.cases_head reaches with rfl | ⟨part, leads, _⟩
  · exact (by decide : Text.Unbroken "open")
  · change Store.Leads {} (.shape (.literal (.json (.string "open")))) part at leads
    obtain ⟨⟨⟩⟩ := leads

end Conform

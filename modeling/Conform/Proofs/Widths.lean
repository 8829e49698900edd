import Conform.Proofs.Enumeration
import Conform.Proofs.Undeclared
/-!
# What the widths of a describer bear on

A found value is outlined first, and the outline is then kept within the widths of the describer.
Both rules are stated here as relations: how a value is outlined, and which text stands for a long
one. From the second follows how long a found text can get, in characters. Everything else in a
report is told by the leaves of the outcome alone, so two describers report the same mismatches
with the same texts, but for the values that were found.
-/

namespace Conform

open List (Forall₂)

/-- How a literal is outlined, at full length. -/
inductive Literal.Outlined : Literal → String → Prop
  /-- An object by its keys, each with the kind of its member. -/
  | object {members : List (String × Json)} {entries : List String}
      (each : Forall₂ (fun member entry => entry = member.1 ++ ":" ++ (Kind.ofJson member.2).name)
        members entries) :
      Outlined (.json (.object members)) ("\x7b" ++ ",".intercalate entries ++ "\x7d")
  /-- An array by the kinds of its elements. -/
  | array {elements : List Json} {entries : List String}
      (each : Forall₂ (fun element entry => entry = (Kind.ofJson element).name)
        elements entries) :
      Outlined (.json (.array elements)) ("[" ++ ",".intercalate entries ++ "]")
  /-- Any other literal by its own text. -/
  | other {literal : Literal} (noObject : literal.kind ≠ .object)
      (noArray : literal.kind ≠ .array) : Outlined literal literal.text

/-- Where the lists are related one by one, there are diagnostics in both or in neither. -/
theorem Diagnostics.rel_of_toList {Related : Diagnostic → Diagnostic → Prop}
    {left right : Option Diagnostics}
    (each : Forall₂ Related ((left.map toList).getD []) ((right.map toList).getD [])) :
    Option.Rel (fun here there => Forall₂ Related here.toList there.toList) left right := by
  cases left with
  | none =>
    cases right with
    | none => exact .none
    | some _ => nomatch each
  | some _ =>
    cases right with
    | none => nomatch each
    | some _ => exact .some each

namespace Describer

/-- How a text is shown by a describer. -/
inductive Fits (describer : Describer) : String → String → Prop
  /-- In full, if it has no more characters than the describer admits. -/
  | whole {full : String} (short : full.length ≤ describer.maxWidth) : Fits describer full full
  /-- By its first characters with three dots after them, if it has more. -/
  | cut {kept dropped : String} (long : describer.maxWidth < (kept ++ dropped).length)
      (width : kept.length = min describer.keptWidth (kept ++ dropped).length) :
      Fits describer (kept ++ dropped) (kept ++ "...")

/-- The outline of a literal is the one that the rule gives. -/
theorem outlined_outline (literal : Literal) : literal.Outlined (outline literal) := by
  match literal with
  | .json (.object members) =>
    refine .object ?_
    rw [List.forall₂_map_right_iff, List.forall₂_same]
    exact fun member _ => rfl
  | .json (.array elements) =>
    refine .array ?_
    rw [List.forall₂_map_right_iff, List.forall₂_same]
    exact fun element _ => rfl
  | .json .null => exact .other nofun nofun
  | .json (.bool _) => exact .other nofun nofun
  | .json (.number _) => exact .other nofun nofun
  | .json (.string _) => exact .other nofun nofun
  | .undefined => exact .other nofun nofun
  | .nonFinite _ => exact .other nofun nofun

/-- A text is fitted as the rule says. -/
theorem fits_fit (describer : Describer) (text : String) :
    describer.Fits text (describer.fit text) := by
  rw [fit]
  split
  case isTrue long =>
    have parts : String.ofList (text.toList.take describer.keptWidth) ++
        String.ofList (text.toList.drop describer.keptWidth) = text := by
      rw [← String.ofList_append, List.take_append_drop, String.ofList_toList]
    have width : (String.ofList (text.toList.take describer.keptWidth)).length =
        min describer.keptWidth text.length := by
      rw [String.length_ofList, List.length_take, String.length_toList]
    have cut := @Fits.cut describer (String.ofList (text.toList.take describer.keptWidth))
      (String.ofList (text.toList.drop describer.keptWidth))
    rw [parts] at cut
    exact cut long width
  case isFalse short => exact .whole (Nat.le_of_not_lt short)

/-- A text that is shown has no more characters than are admitted, unless the three dots after
those that are kept need more. -/
theorem Fits.length_le {describer : Describer} {full shown : String}
    (fits : describer.Fits full shown) :
    shown.length ≤ max describer.maxWidth (describer.keptWidth + 3) := by
  cases fits with
  | whole short => exact le_max_of_le_left short
  | @cut kept dropped _ width =>
    have dots : (kept ++ "...").length = kept.length + 3 := String.length_append kept "..."
    have few : kept.length ≤ describer.keptWidth := by omega
    omega

/-- How a describer reports a leaf under the name of the whole value. -/
inductive Reports (describer : Describer) (root : String) : Occurrence → Diagnostic → Prop
  /-- A mismatch of kind by the names of both kinds. -/
  | kind {positions : List Nat} {steps : List Step} {expected actual : Kind} :
      Reports describer root ⟨positions, steps, .kind expected actual⟩
        ⟨⟨root, steps⟩, .type, expected.name, actual.name⟩
  /-- A mismatch of value by the text of the one and the fitted outline of the other. -/
  | value {positions : List Nat} {steps : List Step} {expected actual : Literal}
      {full shown : String} (outlined : actual.Outlined full) (fits : describer.Fits full shown) :
      Reports describer root ⟨positions, steps, .value expected actual⟩
        ⟨⟨root, steps⟩, .value, expected.text, shown⟩

/-- The diagnostic of a leaf reports it. -/
theorem reports_diagnostic (describer : Describer) (root : String) (leaf : Occurrence) :
    describer.Reports root leaf (describer.diagnostic ⟨root, leaf.steps⟩ leaf.mismatch) := by
  obtain ⟨positions, steps, mismatch⟩ := leaf
  cases mismatch with
  | kind expected actual => exact .kind
  | value expected actual => exact .value (outlined_outline actual) (describer.fits_fit _)

/-- Two describers report a leaf alike, but for the text of a found value. -/
theorem Reports.agrees {left right : Describer} {root : String} {leaf : Occurrence}
    {first second : Diagnostic} (here : left.Reports root leaf first)
    (there : right.Reports root leaf second) : first.Agrees second := by
  cases here with
  | kind =>
    cases there with
    | kind => exact ⟨rfl, rfl, rfl, fun _ => rfl⟩
  | value _ _ =>
    cases there with
    | value _ _ => exact ⟨rfl, rfl, rfl, nofun⟩

/-- The found value in a report is a text that fits the widths. -/
theorem Reports.length_actual_le {describer : Describer} {root : String} {leaf : Occurrence}
    {diagnostic : Diagnostic} (reports : describer.Reports root leaf diagnostic)
    (found : diagnostic.aspect = .value) :
    diagnostic.actual.length ≤ max describer.maxWidth (describer.keptWidth + 3) := by
  cases reports with
  | kind => nomatch found
  | value _ fits => exact fits.length_le

/-- The leaves of an outcome in order are what any describer reports, one by one. -/
theorem exists_leaves_reported (outcome : Outcome) (root : String) :
    ∃ leaves, outcome.Enumerates leaves ∧ ∀ describer : Describer,
      Forall₂ (describer.Reports root) leaves
        (((describer.diagnostics outcome root).map Diagnostics.toList).getD []) := by
  obtain ⟨leaves, enumerates, listed⟩ := outcome.exists_enumeration
  refine ⟨leaves, enumerates, fun describer => ?_⟩
  rw [toList_diagnostics, ← listed, diagnosticsOf, List.map_map, List.forall₂_map_right_iff,
    List.forall₂_same]
  exact fun leaf _ => describer.reports_diagnostic root leaf

/-- Whatever the widths, the diagnostics are those of the leaves of the outcome, one by one: a
found value is outlined and shown in full or cut as the widths say. So any two describers give as
many diagnostics in the same order, with the same paths, aspects and expected texts, and with the
same found text where the kind is wrong. A found value has at most the characters that are admitted,
or three more than are kept, and never more than are admitted if the three dots fit in there. -/
theorem widths_bear_on_found_values_only (outcome : Outcome) (root : String) :
    (∃ leaves, outcome.Enumerates leaves ∧ ∀ describer : Describer,
      Forall₂ (describer.Reports root) leaves
        (((describer.diagnostics outcome root).map Diagnostics.toList).getD [])) ∧
    (∀ left right : Describer,
      Option.Rel (fun here there => Forall₂ Diagnostic.Agrees here.toList there.toList)
        (left.diagnostics outcome root) (right.diagnostics outcome root)) ∧
    ∀ describer : Describer,
      ∀ diagnostic ∈ ((describer.diagnostics outcome root).map Diagnostics.toList).getD [],
        diagnostic.aspect = .value →
          diagnostic.actual.length ≤ max describer.maxWidth (describer.keptWidth + 3) ∧
          (describer.keptWidth + 3 ≤ describer.maxWidth →
            diagnostic.actual.length ≤ describer.maxWidth) := by
  obtain ⟨leaves, enumerates, reported⟩ := exists_leaves_reported outcome root
  refine ⟨⟨leaves, enumerates, reported⟩, ?_, ?_⟩
  · intro left right
    have swapped := forall₂_swap (reported left) fun _ _ _ here => here
    have agree := forall₂_trans swapped (reported right) fun _ _ _ _ here there =>
      Reports.agrees here there
    exact Diagnostics.rel_of_toList agree
  · intro describer diagnostic listed found
    obtain ⟨leaf, _, reports⟩ := exists_matched_of_mem (reported describer) listed
    have most := reports.length_actual_le found
    exact ⟨most, fun room => by omega⟩

/-- A describer that admits three characters and keeps four shows a string of five by seven: the
string is cut, and what is shown in its place is longer. The default describer shows it in full, and
the two agree in everything else. -/
theorem five_letters_shown_by_seven_characters :
    let outcome : Outcome := .wrongValue .undefined (.json (.string "ééééé"))
    let narrow : Describer := { maxWidth := 3, keptWidth := 4 }
    ∃ here there, narrow.diagnostics outcome "v" = some here ∧
      ({} : Describer).diagnostics outcome "v" = some there ∧
      Forall₂ Diagnostic.Agrees here.toList there.toList ∧
      here.first.actual = "éééé..." ∧ there.first.actual = "ééééé" ∧
      here.first.actual.length ≤ max 3 (4 + 3) := by
  intro outcome narrow
  obtain ⟨_, agree, bounded⟩ := widths_bear_on_found_values_only outcome "v"
  have related := agree narrow {}
  have listed := (bounded narrow _ List.mem_cons_self rfl).1
  cases related with
  | some each => exact ⟨_, _, rfl, rfl, each, by decide, by decide, listed⟩

end Describer

end Conform

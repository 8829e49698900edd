import Mathlib.Data.List.Basic
import Conform.Describer
/-!
# The mismatches in an outcome

The leaves of an outcome are its mismatches, and each stands at some place: the properties and
items above it are the steps that lead there, alternatives add none. `Outcome.located` lists the
mismatches with their places from left to right, without any text. A describer writes one
diagnostic for each of them, in this order and at this place.
-/

namespace Conform

/-- What an entry holds is smaller than the list of entries. -/
theorem sizeOf_snd_lt_of_mem {α β : Type} [SizeOf α] [SizeOf β] {entries : List (α × β)}
    {entry : α × β} (member : entry ∈ entries) : sizeOf entry.2 < sizeOf entries := by
  have listed := List.sizeOf_lt_of_mem member
  have inside : sizeOf entry.2 < sizeOf entry := by
    cases entry
    simp only [Prod.mk.sizeOf_spec]
    omega
  omega

/-- A leaf of an outcome. -/
inductive Mismatch where
  /-- A candidate of another kind. -/
  | kind (expected actual : Kind)
  /-- A candidate with another value. -/
  | value (expected actual : Literal)

namespace Outcome

/-- What holds of every leaf, and of an outcome whenever it holds of the outcomes in it, holds of
every outcome. -/
theorem inductionOnParts {motive : Outcome → Prop} (valid : motive .valid)
    (wrongKind : ∀ expected actual, motive (.wrongKind expected actual))
    (wrongValue : ∀ expected actual, motive (.wrongValue expected actual))
    (inProperties : ∀ properties : List (String × Outcome),
      (∀ entry ∈ properties, motive entry.2) → motive (.inProperties properties))
    (inAlternatives : ∀ parts : List Outcome,
      (∀ part ∈ parts, motive part) → motive (.inAlternatives parts))
    (inItems : ∀ items : List (Nat × Outcome),
      (∀ entry ∈ items, motive entry.2) → motive (.inItems items)) :
    ∀ outcome, motive outcome
  | .valid => valid
  | .wrongKind expected actual => wrongKind expected actual
  | .wrongValue expected actual => wrongValue expected actual
  | .inProperties properties => inProperties properties fun entry _ =>
    inductionOnParts valid wrongKind wrongValue inProperties inAlternatives inItems entry.2
  | .inAlternatives parts => inAlternatives parts fun part _ =>
    inductionOnParts valid wrongKind wrongValue inProperties inAlternatives inItems part
  | .inItems items => inItems items fun entry _ =>
    inductionOnParts valid wrongKind wrongValue inProperties inAlternatives inItems entry.2
termination_by outcome => sizeOf outcome
decreasing_by
  · have inside := sizeOf_snd_lt_of_mem ‹_›
    simp only [Outcome.inProperties.sizeOf_spec]
    omega
  · have inside := List.sizeOf_lt_of_mem ‹_›
    simp only [Outcome.inAlternatives.sizeOf_spec]
    omega
  · have inside := sizeOf_snd_lt_of_mem ‹_›
    simp only [Outcome.inItems.sizeOf_spec]
    omega

/-- The outcomes in an outcome, one step down. -/
inductive HasPart : Outcome → Outcome → Prop
  /-- The outcome of a property. -/
  | property {properties : List (String × Outcome)} {entry : String × Outcome}
      (member : entry ∈ properties) : HasPart (.inProperties properties) entry.2
  /-- The outcome of an alternative. -/
  | alternative {parts : List Outcome} {part : Outcome} (member : part ∈ parts) :
      HasPart (.inAlternatives parts) part
  /-- The outcome of an item. -/
  | item {items : List (Nat × Outcome)} {entry : Nat × Outcome} (member : entry ∈ items) :
      HasPart (.inItems items) entry.2

/-- Mismatches one step further from the top. -/
def afterStep (step : Step) (located : List (List Step × Mismatch)) : List (List Step × Mismatch) :=
  located.map fun entry => (step :: entry.1, entry.2)

mutual

/-- The mismatches in an outcome, each with the steps that lead to it. -/
def located : Outcome → List (List Step × Mismatch)
  | .valid => []
  | .wrongKind expected actual => [([], .kind expected actual)]
  | .wrongValue expected actual => [([], .value expected actual)]
  | .inProperties properties => locatedInProperties properties
  | .inAlternatives parts => locatedInParts parts
  | .inItems items => locatedInItems items

/-- The mismatches in properties. -/
def locatedInProperties : List (String × Outcome) → List (List Step × Mismatch)
  | [] => []
  | (name, outcome) :: rest => afterStep (.field name) (located outcome) ++ locatedInProperties rest

/-- The mismatches in alternatives. -/
def locatedInParts : List Outcome → List (List Step × Mismatch)
  | [] => []
  | outcome :: rest => located outcome ++ locatedInParts rest

/-- The mismatches in items. -/
def locatedInItems : List (Nat × Outcome) → List (List Step × Mismatch)
  | [] => []
  | (position, outcome) :: rest =>
    afterStep (.index position) (located outcome) ++ locatedInItems rest

end

/-- The mismatches in properties stand in the order of the properties. -/
theorem located_inProperties (properties : List (String × Outcome)) :
    located (.inProperties properties) =
      properties.flatMap fun entry => afterStep (.field entry.1) (located entry.2) := by
  rw [located]
  induction properties with
  | nil => rfl
  | cons entry rest ih => rw [locatedInProperties, ih, List.flatMap_cons]

/-- The mismatches in alternatives stand in the order of the alternatives. -/
theorem located_inAlternatives (parts : List Outcome) :
    located (.inAlternatives parts) = parts.flatMap located := by
  rw [located]
  induction parts with
  | nil => rfl
  | cons part rest ih => rw [locatedInParts, ih, List.flatMap_cons]

/-- The mismatches in items stand in the order of the items. -/
theorem located_inItems (items : List (Nat × Outcome)) :
    located (.inItems items) =
      items.flatMap fun entry => afterStep (.index entry.1) (located entry.2) := by
  rw [located]
  induction items with
  | nil => rfl
  | cons entry rest ih => rw [locatedInItems, ih, List.flatMap_cons]

/-- There are as many mismatches as leaves. -/
theorem length_located (outcome : Outcome) : outcome.located.length = outcome.leafCount := by
  induction outcome using inductionOnParts with
  | valid => rfl
  | wrongKind _ _ => rfl
  | wrongValue _ _ => rfl
  | inProperties properties ih =>
    rw [located, leafCount]
    induction properties with
    | nil => rfl
    | cons entry rest others =>
      obtain ⟨first, later⟩ := List.forall_mem_cons.mp ih
      rw [locatedInProperties, propertiesLeafCount, List.length_append, afterStep,
        List.length_map, first, others later]
  | inAlternatives parts ih =>
    rw [located, leafCount]
    induction parts with
    | nil => rfl
    | cons part rest others =>
      obtain ⟨first, later⟩ := List.forall_mem_cons.mp ih
      rw [locatedInParts, partsLeafCount, List.length_append, first, others later]
  | inItems items ih =>
    rw [located, leafCount]
    induction items with
    | nil => rfl
    | cons entry rest others =>
      obtain ⟨first, later⟩ := List.forall_mem_cons.mp ih
      rw [locatedInItems, itemsLeafCount, List.length_append, afterStep, List.length_map,
        first, others later]

/-- An outcome has a mismatch if a part of it has one. -/
theorem located_ne_nil_of_hasPart {whole part : Outcome} (has : whole.HasPart part)
    (found : part.located ≠ []) : whole.located ≠ [] := by
  obtain ⟨leaf, listed⟩ := List.exists_mem_of_ne_nil _ found
  cases has with
  | property member =>
    rw [located_inProperties]
    exact List.ne_nil_of_mem (List.mem_flatMap.mpr ⟨_, member, List.mem_map_of_mem listed⟩)
  | alternative member =>
    rw [located_inAlternatives]
    exact List.ne_nil_of_mem (List.mem_flatMap.mpr ⟨_, member, listed⟩)
  | item member =>
    rw [located_inItems]
    exact List.ne_nil_of_mem (List.mem_flatMap.mpr ⟨_, member, List.mem_map_of_mem listed⟩)

end Outcome

/-- The path some steps further. -/
def Path.extend (path : Path) (steps : List Step) : Path := ⟨path.root, path.steps ++ steps⟩

namespace Describer

/-- The diagnostic of a mismatch at a place. -/
def diagnostic (describer : Describer) (path : Path) : Mismatch → Diagnostic
  | .kind expected actual => ⟨path, .type, expected.name, actual.name⟩
  | .value expected actual => ⟨path, .value, expected.text, describer.foundText actual⟩

/-- The diagnostics of mismatches, each at its place below a path. -/
def diagnosticsOf (describer : Describer) (path : Path)
    (located : List (List Step × Mismatch)) : List Diagnostic :=
  located.map fun entry => describer.diagnostic (path.extend entry.1) entry.2

/-- One step further down, the path is one step longer. -/
theorem diagnosticsOf_afterStep (describer : Describer) (path : Path) (step : Step)
    (located : List (List Step × Mismatch)) :
    describer.diagnosticsOf path (Outcome.afterStep step located) =
      describer.diagnosticsOf (path.push step) located := by
  simp [diagnosticsOf, Outcome.afterStep, Path.extend, Path.push]

/-- The diagnostics of lists of mismatches are those of each list in turn. -/
theorem diagnosticsOf_flatMap {α : Type} (describer : Describer) (path : Path) (list : List α)
    (located : α → List (List Step × Mismatch)) :
    describer.diagnosticsOf path (list.flatMap located) =
      list.flatMap fun entry => describer.diagnosticsOf path (located entry) := by
  simp [diagnosticsOf, List.map_flatMap]

/-- A describer writes one diagnostic for each mismatch, in order and at its place. -/
theorem collect_eq_diagnosticsOf (describer : Describer) (path : Path) (outcome : Outcome) :
    describer.collect path outcome = describer.diagnosticsOf path outcome.located := by
  induction outcome using Outcome.inductionOnParts generalizing path with
  | valid => rfl
  | wrongKind _ _ => simp [collect, Outcome.located, diagnosticsOf, diagnostic, Path.extend]
  | wrongValue _ _ => simp [collect, Outcome.located, diagnosticsOf, diagnostic, Path.extend]
  | inProperties properties ih =>
    rw [collect, collectProperties_eq_flatMap, Outcome.located_inProperties, diagnosticsOf_flatMap]
    apply List.flatMap_congr
    intro entry member
    rw [ih entry member, diagnosticsOf_afterStep]
  | inAlternatives parts ih =>
    rw [collect, collectParts_eq_flatMap, Outcome.located_inAlternatives, diagnosticsOf_flatMap]
    exact List.flatMap_congr fun part member => ih part member path
  | inItems items ih =>
    rw [collect, collectItems_eq_flatMap, Outcome.located_inItems, diagnosticsOf_flatMap]
    apply List.flatMap_congr
    intro entry member
    rw [ih entry member, diagnosticsOf_afterStep]

/-- The diagnostics of an outcome are those of its mismatches. -/
theorem toList_diagnostics (describer : Describer) (outcome : Outcome) (root : String) :
    ((describer.diagnostics outcome root).map Diagnostics.toList).getD [] =
      describer.diagnosticsOf (.ofRoot root) outcome.located := by
  rw [diagnostics, Diagnostics.toList_ofList?, collect_eq_diagnosticsOf]
  cases described : describer.diagnosticsOf (.ofRoot root) outcome.located <;> rfl

end Describer

end Conform

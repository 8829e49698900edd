import Conform.Proofs.EntryPoints
/-!
# Diagnostics enumerate the leaves

A leaf of an outcome is found by going down from part to part, and the positions taken on the way
tell it from every other leaf, whatever the names and indices on the way are. Read in the order of
these positions, from left to right, the leaves are what a describer reports: one diagnostic for
each, at the path of the names and indices above it. This holds of every tree of outcomes, also of
trees that no evaluation returns.
-/

namespace Conform

/-- A leaf of an outcome, with the way down to it. -/
structure Occurrence where
  /-- The position of each outcome on the way, among the parts of the one above it. -/
  positions : List Nat
  /-- The names and indices on the way. -/
  steps : List Step
  /-- What the leaf says. -/
  mismatch : Mismatch

/-- What occurs in the part at a position, as it occurs in the whole. -/
def Occurrence.below (position : Nat) (steps : List Step) (inner : Occurrence) : Occurrence :=
  ⟨position :: inner.positions, steps ++ inner.steps, inner.mismatch⟩

namespace Outcome

/-- What an outcome says if it is a leaf. -/
def mismatch? : Outcome → Option Mismatch
  | .wrongKind expected actual => some (.kind expected actual)
  | .wrongValue expected actual => some (.value expected actual)
  | _ => none

/-- The outcomes right below an outcome, with the steps to them; to an alternative there is no
step. -/
def children : Outcome → List (List Step × Outcome)
  | .inProperties properties => properties.map fun entry => ([.field entry.1], entry.2)
  | .inAlternatives parts => parts.map fun part => ([], part)
  | .inItems items => items.map fun entry => ([.index entry.1], entry.2)
  | _ => []

/-- The leaves of an outcome: it is one itself, or they are those of the outcomes below it. -/
inductive HasLeaf : Outcome → Occurrence → Prop
  /-- The outcome itself. -/
  | here {outcome : Outcome} {mismatch : Mismatch} (leaf : outcome.mismatch? = some mismatch) :
      HasLeaf outcome ⟨[], [], mismatch⟩
  /-- A leaf of a part. -/
  | inPart {whole part : Outcome} {position : Nat} {steps : List Step} {inner : Occurrence}
      (child : whole.children[position]? = some (steps, part)) (inside : HasLeaf part inner) :
      HasLeaf whole (inner.below position steps)

/-- A list has the leaves of an outcome and nothing else, from left to right. Since the positions
ascend, no leaf is listed twice. -/
structure Enumerates (outcome : Outcome) (occurrences : List Occurrence) : Prop where
  /-- Every leaf stands before the leaves to the right of it. -/
  ordered : occurrences.Pairwise (·.positions < ·.positions)
  /-- The leaves of the outcome are listed. -/
  mem_iff : ∀ leaf, leaf ∈ occurrences ↔ outcome.HasLeaf leaf

/-- What holds of an outcome whenever it holds of the outcomes right below it holds of every
outcome. -/
theorem inductionOnChildren {motive : Outcome → Prop}
    (step : ∀ whole : Outcome, (∀ child ∈ whole.children, motive child.2) → motive whole)
    (outcome : Outcome) : motive outcome := by
  induction outcome using inductionOnParts with
  | valid => exact step _ nofun
  | wrongKind _ _ => exact step _ nofun
  | wrongValue _ _ => exact step _ nofun
  | inProperties properties ih => exact step _ (List.forall_mem_map.mpr ih)
  | inAlternatives parts ih => exact step _ (List.forall_mem_map.mpr ih)
  | inItems items ih => exact step _ (List.forall_mem_map.mpr ih)

/-- A leaf has nothing below it. -/
theorem children_of_mismatch {outcome : Outcome} {mismatch : Mismatch}
    (leaf : outcome.mismatch? = some mismatch) : outcome.children = [] := by
  cases outcome with
  | wrongKind _ _ => rfl
  | wrongValue _ _ => rfl
  | _ => simp [mismatch?] at leaf

/-- The mismatches in an outcome are its own one, if it is a leaf, and those of its parts. -/
theorem located_eq_own_append_children (outcome : Outcome) :
    outcome.located = (outcome.mismatch?.toList.map fun own => ([], own)) ++
      outcome.children.flatMap fun child =>
        child.2.located.map fun entry => (child.1 ++ entry.1, entry.2) := by
  cases outcome with
  | valid => rfl
  | wrongKind _ _ => rfl
  | wrongValue _ _ => rfl
  | inProperties properties =>
    rw [located_inProperties, children, List.flatMap_map]
    rfl
  | inAlternatives parts =>
    rw [located_inAlternatives, children, List.flatMap_map]
    simp [mismatch?]
  | inItems items =>
    rw [located_inItems, children, List.flatMap_map]
    rfl

/-- The leaves of parts, one part after the other, as they occur in the whole. -/
def leavesBelow (children : List (List Step × Outcome))
    (occurrences : List Step × Outcome → List Occurrence) : List Occurrence :=
  children.zipIdx.flatMap fun entry =>
    (occurrences entry.1).map (Occurrence.below entry.2 entry.1.1)

/-- If the leaves of each part are in order, so are the leaves of the whole. -/
theorem pairwise_leavesBelow {children : List (List Step × Outcome)}
    {occurrences : List Step × Outcome → List Occurrence}
    (each : ∀ child ∈ children, (occurrences child).Pairwise (·.positions < ·.positions)) :
    (leavesBelow children occurrences).Pairwise (·.positions < ·.positions) := by
  have numbered : children.zipIdx.Pairwise (·.2 < ·.2) := by
    rw [← List.pairwise_map (f := Prod.snd), List.zipIdx_map_snd]
    exact List.pairwise_lt_range'
  rw [leavesBelow, List.pairwise_flatMap]
  constructor
  · intro entry member
    have ordered := each _ (List.fst_mem_of_mem_zipIdx member)
    rw [List.pairwise_map]
    exact ordered.imp fun earlier => List.cons_lt_cons_iff.mpr (.inr ⟨rfl, earlier⟩)
  · refine numbered.imp fun earlier leaf listed leaf' listed' => ?_
    obtain ⟨inner, _, rfl⟩ := List.mem_map.mp listed
    obtain ⟨inner', _, rfl⟩ := List.mem_map.mp listed'
    exact List.cons_lt_cons_iff.mpr (.inl earlier)

/-- The leaves of the parts are those that the whole has below it. -/
theorem mem_leavesBelow_iff {whole : Outcome}
    {occurrences : List Step × Outcome → List Occurrence}
    (each : ∀ child ∈ whole.children, ∀ leaf, leaf ∈ occurrences child ↔ child.2.HasLeaf leaf)
    (leaf : Occurrence) :
    leaf ∈ leavesBelow whole.children occurrences ↔
      ∃ (position : Nat) (steps : List Step) (part : Outcome) (inner : Occurrence),
        whole.children[position]? = some (steps, part) ∧ part.HasLeaf inner ∧
        leaf = inner.below position steps := by
  rw [leavesBelow, List.mem_flatMap]
  constructor
  · rintro ⟨⟨⟨steps, part⟩, position⟩, numbered, listed⟩
    obtain ⟨inner, found, rfl⟩ := List.mem_map.mp listed
    have child := List.mem_zipIdx_iff_getElem?.mp numbered
    have has := (each _ (List.mem_of_getElem? child) inner).mp found
    exact ⟨position, steps, part, inner, child, has, rfl⟩
  · rintro ⟨position, steps, part, inner, child, has, rfl⟩
    have found := (each _ (List.mem_of_getElem? child) inner).mpr has
    exact ⟨((steps, part), position), List.mem_zipIdx_iff_getElem?.mpr child,
      List.mem_map_of_mem found⟩

/-- The places and mismatches of the leaves of parts do not depend on positions. -/
theorem map_leavesBelow (children : List (List Step × Outcome))
    (occurrences : List Step × Outcome → List Occurrence) :
    (leavesBelow children occurrences).map (fun leaf => (leaf.steps, leaf.mismatch)) =
      children.flatMap fun child =>
        (occurrences child).map fun leaf => (child.1 ++ leaf.steps, leaf.mismatch) := by
  have unnumbered := List.zipIdx_map_fst 0 children
  conv_rhs => rw [← unnumbered, List.flatMap_map]
  rw [leavesBelow, List.map_flatMap]
  exact List.flatMap_congr fun entry _ => List.map_map

/-- The leaves of an outcome can be listed from left to right, and their places and mismatches are
then those that are located in the outcome. -/
theorem exists_enumeration (outcome : Outcome) :
    ∃ occurrences, outcome.Enumerates occurrences ∧
      occurrences.map (fun leaf => (leaf.steps, leaf.mismatch)) = outcome.located := by
  induction outcome using inductionOnChildren with
  | step whole ih =>
    choose! occurrences enumerated listed using ih
    rw [located_eq_own_append_children]
    cases own : whole.mismatch? with
    | some mismatch =>
      have none : whole.children = [] := children_of_mismatch own
      refine ⟨[⟨[], [], mismatch⟩], ⟨List.pairwise_singleton _ _, fun leaf => ?_⟩, by simp [none]⟩
      rw [List.mem_singleton]
      constructor
      · rintro rfl
        exact .here own
      · intro has
        cases has with
        | here leaf => rw [Option.some.inj (own.symm.trans leaf)]
        | inPart child _ => simp [none] at child
    | none =>
      refine ⟨leavesBelow whole.children occurrences, ⟨?_, fun leaf => ?_⟩, ?_⟩
      · exact pairwise_leavesBelow fun child member => (enumerated child member).ordered
      · rw [mem_leavesBelow_iff fun child member => (enumerated child member).mem_iff]
        constructor
        · rintro ⟨position, steps, part, inner, child, has, rfl⟩
          exact .inPart child has
        · intro has
          cases has with
          | here leaf => simp [own] at leaf
          | inPart child inside => exact ⟨_, _, _, _, child, inside, rfl⟩
      · rw [map_leavesBelow]
        refine List.flatMap_congr fun child member => ?_
        rw [← listed child member, List.map_map]
        rfl

end Outcome

namespace Describer

variable (describer : Describer)

/-- What is collected at a path are the diagnostics for any root, with the path put in front. -/
theorem collect_eq_map_diagnostics (outcome : Outcome) (root : String) (path : Path) :
    describer.collect path outcome =
      (((describer.diagnostics outcome root).map Diagnostics.toList).getD []).map
        fun each => { each with path := path.extend each.path.steps } := by
  rw [toList_diagnostics, collect_eq_diagnosticsOf, diagnosticsOf, diagnosticsOf, List.map_map]
  refine List.map_congr_left fun entry _ => ?_
  rcases entry with ⟨steps, _ | _⟩ <;> rfl

/-- The diagnostics of an outcome, hand-made ones included, are those of its leaves from left to
right, each with what its leaf says and at the path of the names and indices above the leaf; there
are as many as leaves are counted, and none exactly if none is counted. The description has their
lines, joined by line feeds, and what is collected at a path are the same diagnostics with the
path in front. -/
theorem diagnostics_enumerate_leaves (outcome : Outcome) (root : String) :
    (∃ occurrences : List Occurrence, outcome.Enumerates occurrences ∧
      occurrences.length = outcome.leafCount ∧
      ((describer.diagnostics outcome root).map Diagnostics.toList).getD [] =
        occurrences.map fun leaf => describer.diagnostic ⟨root, leaf.steps⟩ leaf.mismatch) ∧
    (describer.diagnostics outcome root = none ↔ outcome.leafCount = 0) ∧
    (∀ diagnostics, describer.diagnostics outcome root = some diagnostics →
      diagnostics.length = outcome.leafCount ∧
      diagnostics.lines = diagnostics.toList.map Diagnostic.text ∧
      describer.describe outcome root = "\n".intercalate diagnostics.lines) ∧
    ∀ path, describer.collect path outcome =
      (((describer.diagnostics outcome root).map Diagnostics.toList).getD []).map
        fun each => { each with path := path.extend each.path.steps } := by
  refine ⟨?_, ?_, ?_, describer.collect_eq_map_diagnostics outcome root⟩
  · obtain ⟨occurrences, enumerates, listed⟩ := outcome.exists_enumeration
    refine ⟨occurrences, enumerates, ?_, ?_⟩
    · rw [← outcome.length_located, ← listed, List.length_map]
    · rw [toList_diagnostics, ← listed, diagnosticsOf, List.map_map]
      rfl
  · rw [describer.diagnostics_eq_none_iff, ← outcome.length_located, List.length_eq_zero_iff]
  · intro diagnostics found
    refine ⟨describer.length_of_diagnostics outcome root found, rfl, ?_⟩
    rw [describe, found]
    rfl

end Describer

end Conform

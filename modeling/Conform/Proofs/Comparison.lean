import Mathlib.Data.List.Forall2
import Mathlib.Data.List.Perm.Basic
import Conform.Proofs.Check
import Conform.Proofs.Mismatch
/-!
# Comparing outcomes

Two evaluations are compared by what they find: both find the candidate valid or neither does, and
the mismatches of the one are related to those of the other. A `Comparison` is a relation between
lists of mismatches with their places that goes through the composition of outcomes, so that
outcomes compare whenever the outcomes in them do. Mismatches may agree one by one, or be the same
in some order.
-/

namespace Conform

open List (Forall₂)

/-- Elements that are related one by one stand in their lists. -/
theorem forall₂_with_mem {α β : Type} {Related : α → β → Prop} {list : List α} {list' : List β}
    (each : Forall₂ Related list list') :
    Forall₂ (fun entry entry' => entry ∈ list ∧ entry' ∈ list' ∧ Related entry entry')
      list list' := by
  obtain ⟨long, related⟩ := List.forall₂_iff_zip.mp each
  refine List.forall₂_iff_zip.mpr ⟨long, fun paired => ?_⟩
  obtain ⟨listed, listed'⟩ := List.of_mem_zip paired
  exact ⟨listed, listed', related paired⟩

/-- Elements that are related one by one stand at one position of their lists. -/
theorem forall₂_with_position {α β : Type} {Related : α → β → Prop} {list : List α}
    {list' : List β} (each : Forall₂ Related list list') :
    Forall₂ (fun entry entry' => ∃ position : Nat, list[position]? = some entry ∧
      list'[position]? = some entry' ∧ Related entry entry') list list' := by
  induction each with
  | nil => exact .nil
  | cons first _ ih =>
    refine .cons ⟨0, rfl, rfl, first⟩ (ih.imp ?_)
    rintro entry entry' ⟨position, found, found', related⟩
    exact ⟨position + 1, found, found', related⟩

/-- Elements that are related one by one are related the other way around. -/
theorem forall₂_swap {α β : Type} {Related : α → β → Prop} {Related' : β → α → Prop}
    {list : List α} {list' : List β} (each : Forall₂ Related list list')
    (swap : ∀ entry ∈ list, ∀ entry', Related entry entry' → Related' entry' entry) :
    Forall₂ Related' list' list :=
  Forall₂.flip ((forall₂_with_mem each).imp fun entry entry' here =>
    swap entry here.1 entry' here.2.2)

/-- Elements that are related one by one to those of a second list, and these to those of a third
one, are related. -/
theorem forall₂_trans {α β γ : Type} {First : α → β → Prop} {Second : β → γ → Prop}
    {Related : α → γ → Prop} {list : List α} {list' : List β} {list'' : List γ}
    (each : Forall₂ First list list') (each' : Forall₂ Second list' list'')
    (through : ∀ entry ∈ list, ∀ entry' entry'', First entry entry' → Second entry' entry'' →
      Related entry entry'') : Forall₂ Related list list'' := by
  induction each generalizing list'' with
  | nil =>
    cases each'
    exact .nil
  | cons first _ ih =>
    obtain ⟨here, later⟩ := List.forall_mem_cons.mp through
    cases each' with
    | cons first' rest' => exact .cons (here _ _ first first') (ih rest' later)

/-- A comparison that goes through two lists in step finds all their elements related. -/
theorem walk_iff_forall₂ {α β : Type} (walk : List α → List β → Bool) (test : α → β → Bool)
    (nil : walk [] [] = true) (long : ∀ entry list, walk (entry :: list) [] = false)
    (short : ∀ entry' list', walk [] (entry' :: list') = false)
    (cons : ∀ entry list entry' list',
      walk (entry :: list) (entry' :: list') = (test entry entry' && walk list list'))
    (list : List α) (list' : List β) :
    walk list list' = true ↔ Forall₂ (fun entry entry' => test entry entry' = true) list list' := by
  induction list generalizing list' with
  | nil =>
    cases list' with
    | nil => simp [nil]
    | cons entry' list' => simp [short]
  | cons entry list ih =>
    cases list' with
    | nil => simp [long]
    | cons entry' list' => rw [cons, Bool.and_eq_true, ih, List.forall₂_cons]

/-- A comparison that goes through two lists of entries in step finds the same keys and all that
they hold related. -/
theorem walk_entries_iff_forall₂ {κ α : Type} [BEq κ] [LawfulBEq κ]
    (walk : List (κ × α) → List (κ × α) → Bool) (test : α → α → Bool) (nil : walk [] [] = true)
    (long : ∀ entry list, walk (entry :: list) [] = false)
    (short : ∀ entry' list', walk [] (entry' :: list') = false)
    (cons : ∀ key value list key' value' list', walk ((key, value) :: list)
      ((key', value') :: list') = (key == key' && test value value' && walk list list'))
    (list list' : List (κ × α)) :
    walk list list' = true ↔
      Forall₂ (fun entry entry' => entry.1 = entry'.1 ∧ test entry.2 entry'.2 = true)
        list list' := by
  rw [walk_iff_forall₂ walk (fun entry entry' => entry.1 == entry'.1 && test entry.2 entry'.2) nil
    long short fun entry list entry' list' => cons entry.1 entry.2 list entry'.1 entry'.2 list']
  simp only [Bool.and_eq_true, beq_iff_eq]

/-- Lists that are related one by one are related with their positions. -/
theorem forall₂_zipIdx {α β : Type} {Related : α → β → Prop} {list : List α} {list' : List β}
    (each : Forall₂ Related list list') (start : Nat) :
    Forall₂ (fun entry entry' => entry'.2 = entry.2 ∧ Related entry.1 entry'.1)
      (list.zipIdx start) (list'.zipIdx start) := by
  induction each generalizing start with
  | nil => exact .nil
  | cons first _ ih => exact .cons ⟨rfl, first⟩ (ih (start + 1))

/-- A relation between mismatches with their places that passes from parts to wholes. -/
structure Comparison where
  /-- The relation. -/
  Related : List (List Step × Mismatch) → List (List Step × Mismatch) → Prop
  /-- No mismatches are related to no mismatches. -/
  nil : Related [] []
  /-- Related mismatches may be followed by related mismatches. -/
  append : ∀ {first first' second second' : List (List Step × Mismatch)},
    Related first first' → Related second second' → Related (first ++ second) (first' ++ second')
  /-- Related mismatches are related one step further down. -/
  afterStep : ∀ {found found' : List (List Step × Mismatch)} (step : Step), Related found found' →
    Related (Outcome.afterStep step found) (Outcome.afterStep step found')

namespace Comparison

/-- The same number of mismatches at the same places, which agree one by one. -/
def pointwise (Agree : Mismatch → Mismatch → Prop) : Comparison where
  Related := Forall₂ fun leaf leaf' => leaf'.1 = leaf.1 ∧ Agree leaf.2 leaf'.2
  nil := .nil
  append first second := List.rel_append first second
  afterStep step related := by
    rw [Outcome.afterStep, Outcome.afterStep, List.forall₂_map_left_iff,
      List.forall₂_map_right_iff]
    exact related.imp fun _ _ here => ⟨congrArg (step :: ·) here.1, here.2⟩

/-- The same mismatches at the same places, in any order. -/
def permuted : Comparison where
  Related := List.Perm
  nil := .nil
  append := .append
  afterStep _ related := related.map _

variable (comparison : Comparison)

/-- Mismatches that are collected from related lists are related. -/
theorem flatMap {α β : Type} {found : α → List (List Step × Mismatch)}
    {found' : β → List (List Step × Mismatch)} {list : List α} {list' : List β}
    (each : Forall₂ (fun entry entry' => comparison.Related (found entry) (found' entry'))
      list list') : comparison.Related (list.flatMap found) (list'.flatMap found') := by
  induction each with
  | nil => exact comparison.nil
  | cons first _ ih =>
    rw [List.flatMap_cons, List.flatMap_cons]
    exact comparison.append first ih

end Comparison

namespace Outcome

/-- What was found under the entries of a list that have mismatches is what was found under all of
them. -/
theorem flatMap_mismatches {α β : Type} (label : α → β) (outcomes : α → Outcome)
    (step : β → Step) (list : List α) :
    ((mismatches label outcomes list).flatMap fun entry =>
        afterStep (step entry.1) entry.2.located) =
      list.flatMap fun entry => afterStep (step (label entry)) (outcomes entry).located := by
  induction list with
  | nil => rfl
  | cons first rest ih =>
    rw [mismatches_cons, addFailure, List.flatMap_cons, ← ih]
    cases valid : (outcomes first).isValid with
    | true => simp [(isValid_iff _).mp valid, located, afterStep]
    | false => simp

/-- The mismatches of an object are those of its properties. -/
theorem located_ofProperties (outcomes : Property → Outcome) (properties : List Property) :
    (ofProperties (mismatches Property.name outcomes properties)).located =
      properties.flatMap fun property =>
        afterStep (.field property.name) (outcomes property).located := by
  rw [← flatMap_mismatches Property.name outcomes Step.field, ← located_inProperties]
  cases mismatches Property.name outcomes properties <;> rfl

/-- The mismatches of an array are those of its elements. -/
theorem located_ofItems (outcomes : Json → Outcome) (elements : List Json) :
    (ofItems (mismatches Prod.snd (fun entry => outcomes entry.1) elements.zipIdx)).located =
      elements.zipIdx.flatMap fun entry =>
        afterStep (.index entry.2) (outcomes entry.1).located := by
  rw [← flatMap_mismatches Prod.snd (fun entry => outcomes entry.1) Step.index, ← located_inItems]
  cases mismatches Prod.snd (fun entry => outcomes entry.1) elements.zipIdx <;> rfl

/-- Both outcomes are valid or none of them is, and their mismatches are related. -/
structure Compares (comparison : Comparison) (outcome outcome' : Outcome) : Prop where
  /-- Validity is the same. -/
  valid_iff : outcome' = .valid ↔ outcome = .valid
  /-- The mismatches are related. -/
  located : comparison.Related outcome.located outcome'.located

namespace Compares

variable {comparison : Comparison}

/-- Valid outcomes compare. -/
theorem valid : Compares comparison .valid .valid := ⟨.rfl, comparison.nil⟩

/-- Lists of outcomes that compare one by one are all valid, or neither of the lists is. -/
theorem forall_valid_iff {α β : Type} {outcomes : α → Outcome} {outcomes' : β → Outcome}
    {list : List α} {list' : List β}
    (each : Forall₂ (fun entry entry' => (outcomes entry).Compares comparison (outcomes' entry'))
      list list') :
    (∀ entry' ∈ list', outcomes' entry' = .valid) ↔ ∀ entry ∈ list, outcomes entry = .valid := by
  induction each with
  | nil => simp
  | cons first _ ih => simp only [List.forall_mem_cons, first.valid_iff, ih]

/-- Objects compare if their properties do, one by one. -/
theorem ofProperties (outcomes outcomes' : Property → Outcome)
    {properties properties' : List Property}
    (each : Forall₂ (fun property property' => property'.name = property.name ∧
      (outcomes property).Compares comparison (outcomes' property')) properties properties') :
    (Outcome.ofProperties (mismatches Property.name outcomes properties)).Compares comparison
      (Outcome.ofProperties (mismatches Property.name outcomes' properties')) := by
  constructor
  · rw [ofProperties_mismatches_eq_valid_iff, ofProperties_mismatches_eq_valid_iff]
    exact forall_valid_iff (each.imp fun _ _ here => here.2)
  · rw [located_ofProperties, located_ofProperties]
    apply comparison.flatMap
    refine each.imp fun property property' here => ?_
    rw [here.1]
    exact comparison.afterStep _ here.2.located

/-- Arrays compare if their elements do, one by one. -/
theorem ofItems (outcomes outcomes' : Json → Outcome) {elements elements' : List Json}
    (each : Forall₂ (fun element element' =>
      (outcomes element).Compares comparison (outcomes' element')) elements elements') :
    (Outcome.ofItems (mismatches Prod.snd (fun entry => outcomes entry.1)
      elements.zipIdx)).Compares comparison
      (Outcome.ofItems (mismatches Prod.snd (fun entry => outcomes' entry.1)
        elements'.zipIdx)) := by
  constructor
  · rw [ofItems_mismatches_eq_valid_iff, ofItems_mismatches_eq_valid_iff]
    exact forall_valid_iff each
  · rw [located_ofItems, located_ofItems]
    apply comparison.flatMap
    refine (forall₂_zipIdx each 0).imp fun entry entry' here => ?_
    rw [here.1]
    exact comparison.afterStep _ here.2.located

/-- Alternatives compare if they do one by one. -/
theorem inAlternatives {parts parts' : List Outcome}
    (each : Forall₂ (Compares comparison) parts parts') :
    (Outcome.inAlternatives parts).Compares comparison (.inAlternatives parts') := by
  constructor
  · exact ⟨nofun, nofun⟩
  · rw [located_inAlternatives, located_inAlternatives]
    exact comparison.flatMap (each.imp fun _ _ here => here.located)

end Compares

end Outcome

end Conform

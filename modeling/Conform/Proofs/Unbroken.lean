import Mathlib.Data.List.Basic
import Conform.Describer
import Conform.Proofs.Parts
/-!
# Texts without line feeds

Texts that are joined by line feeds can be told apart again exactly if none of them has a line feed
itself. Numbers, kinds and the structure of a found value are written without any; what is left are
strings and the keys of objects, which are written as they are.
-/

namespace Conform

namespace Text

/-- A text without a line feed. -/
def Unbroken (text : String) : Prop := '\n' ∉ text.toList

instance (text : String) : Decidable (Unbroken text) :=
  inferInstanceAs (Decidable ('\n' ∉ text.toList))

/-- The lines of a text, which line feeds separate. -/
def lines (text : String) : List String := (text.toList.splitOn '\n').map String.ofList

/-- A text is unbroken if its parts are. -/
@[simp] theorem unbroken_append (first second : String) :
    Unbroken (first ++ second) ↔ Unbroken first ∧ Unbroken second := by
  simp [Unbroken, not_or]

/-- A text of characters is unbroken if none of them is a line feed. -/
@[simp] theorem unbroken_ofList (characters : List Char) :
    Unbroken (String.ofList characters) ↔ '\n' ∉ characters := by
  rw [Unbroken, String.toList_ofList]

/-- Unbroken parts and an unbroken separator make an unbroken text. -/
theorem unbroken_intercalate {separator : String} {parts : List String}
    (between : Unbroken separator) (each : ∀ part ∈ parts, Unbroken part) :
    Unbroken (separator.intercalate parts) := by
  induction parts with
  | nil => simp [Unbroken]
  | cons first rest ih =>
    obtain ⟨here, later⟩ := List.forall_mem_cons.mp each
    by_cases last : rest = []
    · rw [last, String.intercalate_singleton]
      exact here
    · rw [String.intercalate_cons_of_ne_nil last, unbroken_append, unbroken_append]
      exact ⟨⟨here, between⟩, ih later⟩

/-- What stands between separators has none. -/
theorem not_mem_of_mem_splitOn {separator : Char} {characters piece : List Char}
    (listed : piece ∈ characters.splitOn separator) : separator ∉ piece := by
  induction characters generalizing piece with
  | nil =>
    rw [List.splitOn_nil, List.mem_singleton] at listed
    rw [listed]
    exact List.not_mem_nil
  | cons character rest ih =>
    rw [List.splitOn_cons_eq_if_modifyHead] at listed
    split at listed
    · rcases List.mem_cons.mp listed with rfl | later
      · exact List.not_mem_nil
      · exact ih later
    · rename_i different
      cases pieces : rest.splitOn separator with
      | nil => exact absurd pieces (List.splitOn_ne_nil _ _)
      | cons first others =>
        rw [pieces] at listed ih
        rcases List.mem_cons.mp listed with rfl | later
        · rw [List.mem_cons, not_or]
          exact ⟨fun same => different (beq_of_eq same.symm), ih List.mem_cons_self⟩
        · exact ih (.tail _ later)

/-- Joined lines are split into the same lines exactly if each of them is unbroken. -/
theorem lines_intercalate_eq_iff {parts : List String} (nonempty : parts ≠ []) :
    lines ("\n".intercalate parts) = parts ↔ ∀ part ∈ parts, Unbroken part := by
  constructor
  · intro same part member
    rw [← same] at member
    obtain ⟨piece, listed, rfl⟩ := List.mem_map.mp member
    rw [unbroken_ofList]
    exact not_mem_of_mem_splitOn listed
  · intro each
    have split : (("\n".intercalate parts).toList.splitOn '\n') = parts.map String.toList := by
      rw [String.toList_intercalate]
      apply List.splitOn_intercalate
      · exact List.forall_mem_map.mpr each
      · rwa [ne_eq, List.map_eq_nil_iff]
    rw [lines, split, List.map_map]
    exact List.map_id'' (fun part => String.ofList_toList) parts

end Text

namespace Decimal

/-- A number is written with digits only. -/
theorem not_mem_toDigits {character : Char} (noDigit : character.isDigit = false) (number : Nat) :
    character ∉ Nat.toDigits 10 number := by
  intro member
  have digit := Nat.isDigit_of_mem_toDigits (by decide) (by decide) member
  exact absurd (noDigit.symm.trans digit) (by decide)

/-- Digits have no line feed. -/
theorem newline_not_mem_toDigits (number : Nat) : '\n' ∉ Nat.toDigits 10 number :=
  not_mem_toDigits (by decide) number

/-- Significant digits have no line feed. -/
theorem newline_not_mem_significantDigits (number : Decimal) :
    '\n' ∉ number.significantDigits := by
  rw [significantDigits]
  split
  · decide
  · intro member
    have kept := (List.dropWhile_sublist _).subset (List.mem_reverse.mp member)
    exact newline_not_mem_toDigits _ (List.mem_reverse.mp kept)

/-- Digits with an exponent have no line feed if the texts of the layout have none. -/
theorem Layout.newline_not_mem_renderExponent {layout : Layout} (mark : '\n' ≠ layout.exponentMark)
    (sign : '\n' ∉ layout.positiveSign) {digits : List Char} (none : '\n' ∉ digits)
    (leading : Int) : '\n' ∉ layout.renderExponent digits leading := by
  have exponent := newline_not_mem_toDigits leading.natAbs
  have signed : '\n' ∉ if leading < 0 then ['-'] else layout.positiveSign := by
    split
    · decide
    · exact sign
  have ending : '\n' ∉ layout.exponentMark :: ((if leading < 0 then ['-']
      else layout.positiveSign) ++ Nat.toDigits 10 leading.natAbs) := by
    rw [List.mem_cons, List.mem_append, not_or, not_or]
    exact ⟨mark, signed, exponent⟩
  rcases digits with _ | ⟨first, _ | ⟨second, rest⟩⟩
  · exact ending
  · exact fun member => (List.mem_append.mp member).elim none ending
  · rw [List.mem_cons, not_or] at none
    rw [renderExponent, List.mem_append, List.mem_cons, List.mem_cons, not_or, not_or, not_or]
    exact ⟨⟨none.1, by decide, none.2⟩, ending⟩

/-- A magnitude is written without a line feed if the texts of its layout have none. -/
theorem Layout.unbroken_render {layout : Layout} (fraction : '\n' ∉ layout.wholeFraction)
    (mark : '\n' ≠ layout.exponentMark) (sign : '\n' ∉ layout.positiveSign) (number : Decimal) :
    Text.Unbroken (layout.render number) := by
  have digits := newline_not_mem_significantDigits number
  have zeros (count : Nat) : '\n' ∉ List.replicate count '0' := fun member =>
    absurd (List.eq_of_mem_replicate member) (by decide)
  rw [render, Text.unbroken_ofList]
  split
  · exact newline_not_mem_renderExponent mark sign digits _
  · split
    · rw [renderSmall, List.mem_cons, List.mem_cons, List.mem_append, not_or, not_or, not_or]
      exact ⟨by decide, by decide, zeros _, digits⟩
    · have whole (count : Nat) : '\n' ∉ number.significantDigits.take count :=
        fun member => digits (List.mem_of_mem_take member)
      have below (count : Nat) : '\n' ∉ number.significantDigits.drop count :=
        fun member => digits (List.mem_of_mem_drop member)
      rw [renderLarge]
      split
      · rw [List.mem_append, List.mem_append, not_or, not_or]
        exact ⟨⟨whole _, zeros _⟩, fraction⟩
      · rw [List.mem_append, List.mem_cons, not_or, not_or]
        exact ⟨whole _, by decide, below _⟩

end Decimal

/-- Natural numbers are written without a line feed. -/
theorem Text.unbroken_repr (number : Nat) : Text.Unbroken number.repr :=
  (Text.unbroken_ofList _).mpr (Decimal.newline_not_mem_toDigits number)

/-- Numbers are written without a line feed. -/
theorem Number.unbroken_text (number : Number) : Text.Unbroken number.text := by
  cases number with
  | integer value =>
    rw [Number.text, Int.toString_eq_repr, Int.repr_eq_if]
    split
    · exact Text.unbroken_repr _
    · rw [Text.unbroken_append]
      exact ⟨by decide, Text.unbroken_repr _⟩
  | double value =>
    have magnitude : Text.Unbroken (layout.render (Binary64.shortest value.units)) :=
      Decimal.Layout.unbroken_render (by decide) (by decide) (by decide) _
    rw [Number.text, Number.doubleText]
    split
    · rw [Text.unbroken_append]
      exact ⟨by decide, magnitude⟩
    · exact magnitude

/-- Kinds have unbroken names. -/
theorem Kind.unbroken_name (kind : Kind) : Text.Unbroken kind.name := by
  cases kind <;> decide

/-- A position is written without a line feed. -/
theorem Step.unbroken_index (position : Nat) : Text.Unbroken (Step.index position).text := by
  simp only [Step.text, Text.unbroken_append]
  exact ⟨⟨by decide, Text.unbroken_repr position⟩, by decide⟩

/-- A value that shows no line feed itself: it is no string and no object, or they have unbroken
texts and keys. -/
def Json.ShowsUnbroken : Json → Prop
  | .string text => Text.Unbroken text
  | .object members => ∀ member ∈ members, Text.Unbroken member.1
  | _ => True

/-- Neither a string in a value nor a key of an object in it has a line feed. -/
def Json.Unbroken (value : Json) : Prop := value.Throughout ShowsUnbroken

namespace Describer

/-- The text of a found value has a line feed only if the value shows one. -/
theorem unbroken_outline {value : Json} (shows : value.ShowsUnbroken) :
    Text.Unbroken (outline (.json value)) := by
  match value with
  | .null => exact (by decide : Text.Unbroken "null")
  | .bool true => exact (by decide : Text.Unbroken "true")
  | .bool false => exact (by decide : Text.Unbroken "false")
  | .number number => exact number.unbroken_text
  | .string text => exact shows
  | .array elements =>
    have kinds : Text.Unbroken (",".intercalate
        (elements.map fun element => (Kind.ofJson element).name)) := by
      refine Text.unbroken_intercalate (by decide) (List.forall_mem_map.mpr fun element _ => ?_)
      exact (Kind.ofJson element).unbroken_name
    simp only [outline, Text.unbroken_append]
    exact ⟨⟨by decide, kinds⟩, by decide⟩
  | .object members =>
    have entries : Text.Unbroken (",".intercalate
        (members.map fun member => member.1 ++ ":" ++ (Kind.ofJson member.2).name)) := by
      refine Text.unbroken_intercalate (by decide) (List.forall_mem_map.mpr fun member listed => ?_)
      simp only [Text.unbroken_append]
      exact ⟨⟨shows member listed, by decide⟩, (Kind.ofJson member.2).unbroken_name⟩
    simp only [outline, Text.unbroken_append]
    exact ⟨⟨by decide, entries⟩, by decide⟩

/-- Cutting a text to the widths of a describer puts no line feed into it. -/
theorem unbroken_fit (describer : Describer) {text : String} (unbroken : Text.Unbroken text) :
    Text.Unbroken (describer.fit text) := by
  rw [fit]
  split
  · rw [Text.unbroken_append, Text.unbroken_ofList]
    exact ⟨fun member => unbroken (List.mem_of_mem_take member), by decide⟩
  · exact unbroken

end Describer

end Conform

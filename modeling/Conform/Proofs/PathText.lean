import Conform.Proofs.Mismatch
import Conform.Proofs.Unbroken
/-!
# The text of a path

A step by a field begins with a dot and a step by an index with a bracket, so the text of a path can
be told apart into its steps again where no name has one of these two characters: up to the first of
them stands the root, and up to the next one a field. An index is closed by a bracket of its own,
which no digit is. Two paths with such names are therefore written alike only if they are the same.
Names may be empty, and they may have closing brackets and digits.
-/

namespace Conform

namespace Text

/-- What stands before the first character of some sort is found again. -/
theorem takeWhile_append_eq {ends : Char → Bool} {part rest : List Char}
    (inside : ∀ character ∈ part, ends character = false)
    (stops : ∀ character ∈ rest.head?, ends character = true) :
    (part ++ rest).takeWhile (fun character => !ends character) = part := by
  rw [List.takeWhile_append_of_pos fun character member => by simp [inside character member]]
  cases rest with
  | nil => simp
  | cons character _ => simp [stops character rfl]

/-- Two texts are the same only if their beginnings are, where a beginning ends right before the
first character of some sort. -/
theorem eq_and_eq_of_append_eq (ends : Char → Bool) {part part' rest rest' : List Char}
    (inside : ∀ character ∈ part, ends character = false)
    (inside' : ∀ character ∈ part', ends character = false)
    (stops : ∀ character ∈ rest.head?, ends character = true)
    (stops' : ∀ character ∈ rest'.head?, ends character = true)
    (same : part ++ rest = part' ++ rest') : part = part' ∧ rest = rest' := by
  have parts : part = part' := by
    rw [← takeWhile_append_eq inside stops, same, takeWhile_append_eq inside' stops']
  rw [parts] at same
  exact ⟨parts, List.append_cancel_left same⟩

end Text

/-- A name with none of the characters that begin a step. -/
def Step.PlainName (name : String) : Prop := '.' ∉ name.toList ∧ '[' ∉ name.toList

instance (name : String) : Decidable (Step.PlainName name) :=
  inferInstanceAs (Decidable ('.' ∉ name.toList ∧ '[' ∉ name.toList))

/-- A step with a plain name, if it has one. -/
def Step.Plain : Step → Prop
  | .field name => PlainName name
  | .index _ => True

instance : (step : Step) → Decidable step.Plain
  | .field name => inferInstanceAs (Decidable (Step.PlainName name))
  | .index _ => inferInstanceAs (Decidable True)

namespace Step

/-- Whether a character begins a step. -/
def begins (character : Char) : Bool := character == '.' || character == '['

/-- No character of a plain name begins a step. -/
theorem PlainName.not_begins {name : String} (plain : PlainName name) :
    ∀ character ∈ name.toList, begins character = false := by
  intro character member
  have noDot : character ≠ '.' := fun dot => plain.1 (dot ▸ member)
  have noBracket : character ≠ '[' := fun bracket => plain.2 (bracket ▸ member)
  simp [begins, noDot, noBracket]

/-- No digit of an index closes it. -/
theorem not_closes (position : Nat) :
    ∀ digit ∈ Nat.toDigits 10 position, (digit == ']') = false := by
  intro digit member
  have bracket := Decimal.not_mem_toDigits (by decide : Char.isDigit ']' = false) position
  exact beq_false_of_ne fun same => bracket (same ▸ member)

/-- The characters of a step by a field. -/
theorem toList_text_field (name : String) : (field name).text.toList = '.' :: name.toList := by
  simp [text]

/-- The characters of a step by an index. -/
theorem toList_text_index (position : Nat) :
    (index position).text.toList = '[' :: (Nat.toDigits 10 position ++ [']']) := by
  simp [text, Nat.toList_repr]

/-- The text of a step begins with a character that begins a step. -/
theorem exists_text_eq_cons (step : Step) :
    ∃ first others, step.text.toList = first :: others ∧ begins first = true := by
  cases step with
  | field name => exact ⟨_, _, toList_text_field name, rfl⟩
  | index position => exact ⟨_, _, toList_text_index position, rfl⟩

end Step

namespace Path

/-- The characters of steps are those of the first step and those of the others. -/
theorem toList_stepsText_cons (step : Step) (rest : List Step) :
    (stepsText (step :: rest)).toList = step.text.toList ++ (stepsText rest).toList := by
  rw [stepsText, String.toList_append]

/-- If there are steps, their text begins with a character that begins a step. -/
theorem exists_stepsText_eq_cons (step : Step) (rest : List Step) :
    ∃ first others, (stepsText (step :: rest)).toList = first :: others ∧
      Step.begins first = true := by
  obtain ⟨first, others, whole, begins⟩ := step.exists_text_eq_cons
  refine ⟨first, others ++ (stepsText rest).toList, ?_, begins⟩
  rw [toList_stepsText_cons, whole, List.cons_append]

/-- What follows a name, if it is the text of steps, begins with a character that begins a step. -/
theorem begins_head?_stepsText (steps : List Step) :
    ∀ character ∈ (stepsText steps).toList.head?, Step.begins character = true := by
  cases steps with
  | nil => simp [stepsText]
  | cons step rest =>
    obtain ⟨first, others, whole, begins⟩ := exists_stepsText_eq_cons step rest
    rw [whole]
    rintro character ⟨⟩
    exact begins

/-- The text of steps is empty only if there are none. -/
theorem toList_stepsText_ne_nil (step : Step) (rest : List Step) :
    (stepsText (step :: rest)).toList ≠ [] := by
  obtain ⟨first, others, whole, _⟩ := exists_stepsText_eq_cons step rest
  rw [whole]
  exact List.cons_ne_nil _ _

/-- The text of steps tells the first of them, if its name is plain, and the text of the others: the
first character tells a field from an index, and the digits of an index end at its bracket. -/
theorem step_eq_of_text_eq {step step' : Step} (plain : step.Plain) (plain' : step'.Plain)
    {rest rest' : List Step}
    (same : (stepsText (step :: rest)).toList = (stepsText (step' :: rest')).toList) :
    step = step' ∧ (stepsText rest).toList = (stepsText rest').toList := by
  rw [toList_stepsText_cons, toList_stepsText_cons] at same
  cases step with
  | field name =>
    cases step' with
    | field name' =>
      rw [Step.toList_text_field, Step.toList_text_field] at same
      have names := Text.eq_and_eq_of_append_eq Step.begins plain.not_begins plain'.not_begins
        (begins_head?_stepsText rest) (begins_head?_stepsText rest') (List.cons.inj same).2
      exact ⟨congrArg Step.field (String.toList_inj.mp names.1), names.2⟩
    | index position' =>
      rw [Step.toList_text_field, Step.toList_text_index] at same
      exact absurd (List.cons.inj same).1 (by decide)
  | index position =>
    cases step' with
    | field name' =>
      rw [Step.toList_text_field, Step.toList_text_index] at same
      exact absurd (List.cons.inj same).1 (by decide)
    | index position' =>
      rw [Step.toList_text_index, Step.toList_text_index] at same
      have closed : Nat.toDigits 10 position ++ ']' :: (stepsText rest).toList =
          Nat.toDigits 10 position' ++ ']' :: (stepsText rest').toList := by
        simpa using same
      have numbers := Text.eq_and_eq_of_append_eq (· == ']') (Step.not_closes position)
        (Step.not_closes position') (by simp) (by simp) closed
      have positions : position = position' := by
        calc
          position = Nat.ofDigitChars 10 (Nat.toDigits 10 position) 0 :=
            Nat.ofDigitChars_ten_toDigits.symm
          _ = Nat.ofDigitChars 10 (Nat.toDigits 10 position') 0 := by rw [numbers.1]
          _ = position' := Nat.ofDigitChars_ten_toDigits
      exact ⟨congrArg Step.index positions, (List.cons.inj numbers.2).2⟩

/-- Plain steps are told by their text. -/
theorem steps_eq_of_text_eq {steps steps' : List Step} (plain : ∀ step ∈ steps, step.Plain)
    (plain' : ∀ step ∈ steps', step.Plain)
    (same : (stepsText steps).toList = (stepsText steps').toList) : steps = steps' := by
  induction steps generalizing steps' with
  | nil =>
    cases steps' with
    | nil => rfl
    | cons step' rest' => exact absurd same.symm (toList_stepsText_ne_nil step' rest')
  | cons step rest ih =>
    cases steps' with
    | nil => exact absurd same (toList_stepsText_ne_nil step rest)
    | cons step' rest' =>
      obtain ⟨first, others⟩ := List.forall_mem_cons.mp plain
      obtain ⟨first', others'⟩ := List.forall_mem_cons.mp plain'
      obtain ⟨rfl, later⟩ := step_eq_of_text_eq first first' same
      rw [ih others others' later]

/-- A path with plain names. -/
def Plain (path : Path) : Prop := Step.PlainName path.root ∧ ∀ step ∈ path.steps, step.Plain

/-- Steps taken one after the other are put at the end of the path. -/
theorem foldl_push (path : Path) (steps : List Step) :
    steps.foldl push path = path.extend steps := by
  induction steps generalizing path with
  | nil => simp [extend]
  | cons step rest ih => simp [ih, extend, push]

/-- Paths with plain names are told by their text. -/
theorem eq_of_text_eq {path path' : Path} (plain : path.Plain) (plain' : path'.Plain)
    (same : path.text = path'.text) : path.root = path'.root ∧ path.steps = path'.steps := by
  have characters := congrArg String.toList same
  rw [text, text, String.toList_append, String.toList_append] at characters
  have parts := Text.eq_and_eq_of_append_eq Step.begins plain.1.not_begins plain'.1.not_begins
    (begins_head?_stepsText path.steps) (begins_head?_stepsText path'.steps) characters
  exact ⟨String.toList_inj.mp parts.1, steps_eq_of_text_eq plain.2 plain'.2 parts.2⟩

/-- Paths that are built from a root by any steps, where no name has a dot or an opening bracket,
are written alike exactly if they are the same, and then they were built from the same root by the
same steps in the same order. -/
theorem text_identifies_path {root root' : String} {steps steps' : List Step}
    (plainRoot : Step.PlainName root) (plainSteps : ∀ step ∈ steps, step.Plain)
    (plainRoot' : Step.PlainName root') (plainSteps' : ∀ step ∈ steps', step.Plain) :
    let path := steps.foldl push (ofRoot root)
    let path' := steps'.foldl push (ofRoot root')
    (path.text = path'.text ↔ path = path') ∧ (path = path' ↔ root = root' ∧ steps = steps') := by
  intro path path'
  have built : path = ⟨root, steps⟩ := foldl_push (ofRoot root) steps
  have built' : path' = ⟨root', steps'⟩ := foldl_push (ofRoot root') steps'
  have same : path = path' ↔ root = root' ∧ steps = steps' := by
    rw [built, built', mk.injEq]
  refine ⟨⟨fun written => same.mpr ?_, fun whole => congrArg text whole⟩, same⟩
  rw [built, built'] at written
  exact eq_of_text_eq ⟨plainRoot, plainSteps⟩ ⟨plainRoot', plainSteps'⟩ written

/-- A digit and a closing bracket in a name are not taken for those of an index. -/
theorem index_before_digit_is_told_apart :
    let steps : List Step := [.index 1, .field "0]", .field ""]
    let steps' : List Step := [.index 10, .field "]", .field ""]
    Step.PlainName "" ∧ (∀ step ∈ steps, step.Plain) ∧ (∀ step ∈ steps', step.Plain) ∧
      (steps.foldl push (ofRoot "")).text ≠ (steps'.foldl push (ofRoot "")).text := by
  intro steps steps'
  have root : Step.PlainName "" := by decide
  have plain : ∀ step ∈ steps, step.Plain := by decide
  have plain' : ∀ step ∈ steps', step.Plain := by decide
  refine ⟨root, plain, plain', fun written => ?_⟩
  obtain ⟨texts, parts⟩ := text_identifies_path root plain root plain'
  exact absurd (parts.mp (texts.mp written)).2 (by decide)

end Path

end Conform

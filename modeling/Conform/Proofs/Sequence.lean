import Mathlib.Data.List.Basic
import Conform.Diagnostic
/-!
# Diagnostics are a sequence

Diagnostics are told by their list, which may be any list but the empty one: the diagnostics of a
list have exactly this list, and they are the only ones that have it. Combining puts one list after
the other. So what is read off diagnostics goes through combination: their lines, their text, and
those at a place. A place is a root with steps, not a text: two places may be written alike.
-/

namespace Conform.Diagnostics

/-- The diagnostics of a list are those that have it. -/
theorem ofList?_eq_some_iff {listed : List Diagnostic} {diagnostics : Diagnostics} :
    ofList? listed = some diagnostics ↔ diagnostics.toList = listed := by
  have kept := toList_ofList? listed
  constructor
  · intro found
    rw [found, Option.map_some] at kept
    split at kept
    · nomatch kept
    · exact Option.some.inj kept
  · intro same
    have nonempty : listed ≠ [] := same ▸ List.cons_ne_nil _ _
    rw [if_neg nonempty] at kept
    obtain ⟨made, found, whole⟩ := Option.map_eq_some_iff.mp kept
    rw [found, ext_toList (whole.trans same.symm)]

/-- Only the empty list has no diagnostics. -/
theorem ofList?_eq_none_iff {listed : List Diagnostic} : ofList? listed = none ↔ listed = [] := by
  cases listed with
  | nil => simp [ofList?]
  | cons first rest => simp [ofList?]

/-- Every other list has diagnostics. -/
theorem exists_ofList? {listed : List Diagnostic} (nonempty : listed ≠ []) :
    ∃ diagnostics, ofList? listed = some diagnostics :=
  Option.ne_none_iff_exists'.mp (ofList?_eq_none_iff.not.mpr nonempty)

/-- The first diagnostic is the head of the list. -/
theorem head?_toList (diagnostics : Diagnostics) :
    diagnostics.toList.head? = some diagnostics.first := rfl

/-- Combining the diagnostics of two lists gives those of one list after the other. -/
theorem ofList?_append {listed others : List Diagnostic} {left right : Diagnostics}
    (first : ofList? listed = some left) (second : ofList? others = some right) :
    ofList? (listed ++ others) = some (left.combine right) := by
  rw [ofList?_eq_some_iff] at first second ⊢
  rw [toList_combine, first, second]

section

variable (left right third : Diagnostics)

/-- It does not matter which two are combined first. -/
theorem combine_assoc :
    (left.combine right).combine third = left.combine (right.combine third) := by
  apply ext_toList
  simp only [toList_combine, List.append_assoc]

/-- Combined diagnostics have the lines of both. -/
theorem lines_combine : (left.combine right).lines = left.lines ++ right.lines := by
  rw [lines, toList_combine, List.map_append]
  rfl

/-- There is a line at least. -/
theorem lines_ne_nil (diagnostics : Diagnostics) : diagnostics.lines ≠ [] := List.cons_ne_nil _ _

/-- The text of combined diagnostics is one text after the other, with a line feed between them. -/
theorem text_combine : (left.combine right).text = left.text ++ "\n" ++ right.text := by
  rw [text, lines_combine,
    String.intercalate_append_of_ne_nil left.lines_ne_nil right.lines_ne_nil]
  rfl

end

/-- The diagnostics at a place are found one part after the other. -/
theorem atPath_combine (left right : Diagnostics) (path : Path) :
    (left.combine right).atPath path = left.atPath path ++ right.atPath path := by
  rw [atPath, toList_combine, List.filter_append]
  rfl

/-- The diagnostics at a place stand in the order of the list. -/
theorem atPath_sublist (diagnostics : Diagnostics) (path : Path) :
    (diagnostics.atPath path).Sublist diagnostics.toList := List.filter_sublist

/-- At a place are the diagnostics with its root and its steps, each as often as it is listed. -/
theorem count_atPath (diagnostics : Diagnostics) (path : Path) (diagnostic : Diagnostic) :
    (diagnostics.atPath path).count diagnostic =
      if diagnostic.path.root = path.root ∧ diagnostic.path.steps = path.steps then
        diagnostics.toList.count diagnostic
      else 0 := by
  have place : diagnostic.path = path ↔
      diagnostic.path.root = path.root ∧ diagnostic.path.steps = path.steps := by
    cases diagnostic.path
    cases path
    exact Path.mk.injEq _ _ _ _ ▸ Iff.rfl
  rw [atPath]
  by_cases here : diagnostic.path = path
  · have kept : decide (diagnostic.path = path) = true := decide_eq_true here
    rw [if_pos (place.mp here)]
    exact List.count_filter kept
  · rw [if_neg (place.not.mp here), List.count_eq_zero]
    exact fun member => here (of_decide_eq_true (List.mem_filter.mp member).2)

/-- Every list but the empty one has diagnostics, and these have the list in its order and nothing
else, its head and its length; two lists have the combined diagnostics of both. All diagnostics are
those of their list. Combination is associative. The text of combined diagnostics is that of the
first, a line feed, and that of the second. The diagnostics at a place are those at the place in the
first and then those in the second; in general, they are what the list has with the root and the
steps of the place, in order and as often. -/
theorem lists_are_kept_and_combined (listed others : List Diagnostic) :
    (ofList? listed = none ↔ listed = []) ∧
    (listed ≠ [] → ∃ diagnostics, ofList? listed = some diagnostics ∧
      diagnostics.toList = listed ∧ listed.head? = some diagnostics.first ∧
      diagnostics.length = listed.length) ∧
    (listed ≠ [] → others ≠ [] → ∃ left right, ofList? listed = some left ∧
      ofList? others = some right ∧ ofList? (listed ++ others) = some (left.combine right)) ∧
    ∀ left right : Diagnostics,
      ofList? left.toList = some left ∧
      (∀ third, (left.combine right).combine third = left.combine (right.combine third)) ∧
      (left.combine right).text = left.text ++ "\n" ++ right.text ∧
      ∀ path, (left.combine right).atPath path = left.atPath path ++ right.atPath path ∧
        (left.atPath path).Sublist left.toList ∧
        ∀ diagnostic, (left.atPath path).count diagnostic =
          if diagnostic.path.root = path.root ∧ diagnostic.path.steps = path.steps then
            left.toList.count diagnostic
          else 0 := by
  refine ⟨ofList?_eq_none_iff, ?_, ?_, ?_⟩
  · intro nonempty
    obtain ⟨diagnostics, found⟩ := exists_ofList? nonempty
    have same := ofList?_eq_some_iff.mp found
    refine ⟨diagnostics, found, same, ?_, ?_⟩
    · rw [← same, head?_toList]
    · rw [length, same]
  · intro nonempty nonempty'
    obtain ⟨left, first⟩ := exists_ofList? nonempty
    obtain ⟨right, second⟩ := exists_ofList? nonempty'
    exact ⟨left, right, first, second, ofList?_append first second⟩
  · intro left right
    refine ⟨ofList?_eq_some_iff.mpr rfl, left.combine_assoc right, left.text_combine right, ?_⟩
    intro path
    exact ⟨left.atPath_combine right path, left.atPath_sublist path, left.count_atPath path⟩

/-- Two places may be written alike, here a name with a dot and a field under a name. Diagnostics
with the same line are told apart by their places, also after combination. -/
theorem one_line_at_two_places :
    let here : Diagnostic := ⟨⟨"a.b", []⟩, .type, "number", "null"⟩
    let there : Diagnostic := ⟨⟨"a", [.field "b"]⟩, .type, "number", "null"⟩
    here.text = there.text ∧
      ∃ left right, ofList? [here, there] = some left ∧ ofList? [here] = some right ∧
        ofList? [here, there, here] = some (left.combine right) ∧
        (left.combine right).atPath here.path = [here, here] ∧
        (left.combine right).atPath there.path = [there] := by
  intro here there
  obtain ⟨_, _, combined, _⟩ := lists_are_kept_and_combined [here, there] [here]
  obtain ⟨left, right, first, second, both⟩ :=
    combined (List.cons_ne_nil _ _) (List.cons_ne_nil _ _)
  refine ⟨by decide, left, right, first, second, both, ?_⟩
  obtain rfl : ⟨here, [there]⟩ = left := Option.some.inj first
  obtain rfl : ⟨here, []⟩ = right := Option.some.inj second
  exact ⟨by decide, by decide⟩

end Conform.Diagnostics

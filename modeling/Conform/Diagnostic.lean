import Conform.Path
/-!
# Diagnostics

A diagnostic is one mismatch with its place and its texts, and is written as one line.
`Diagnostics` is a list of them that is never empty; it is built by combining single ones from
left to right, and its text has the lines in that order.
-/

namespace Conform

/-- In which respect a candidate differs from what was expected. -/
inductive Aspect where
  /-- In its kind. -/
  | type
  /-- In its value. -/
  | value
deriving DecidableEq

/-- The name of an aspect. -/
def Aspect.name : Aspect → String
  | .type => "type"
  | .value => "value"

/-- One mismatch. -/
structure Diagnostic where
  /-- Where the mismatch is. -/
  path : Path
  /-- In which respect the candidate differs. -/
  aspect : Aspect
  /-- The text of what was expected. -/
  expected : String
  /-- The text of what was found. -/
  actual : String
deriving DecidableEq

/-- The line of a diagnostic. -/
def Diagnostic.text (diagnostic : Diagnostic) : String :=
  diagnostic.path.text ++ ": expected " ++ diagnostic.aspect.name ++ " \"" ++
    diagnostic.expected ++ "\" but was " ++ diagnostic.actual

/-- At least one diagnostic. -/
structure Diagnostics where
  /-- The first diagnostic. -/
  first : Diagnostic
  /-- The diagnostics after it. -/
  rest : List Diagnostic
deriving DecidableEq

namespace Diagnostics

/-- One diagnostic alone. -/
def single (diagnostic : Diagnostic) : Diagnostics := ⟨diagnostic, []⟩

/-- Every diagnostic in order. -/
def toList (diagnostics : Diagnostics) : List Diagnostic := diagnostics.first :: diagnostics.rest

/-- The diagnostics of one followed by those of another. -/
def combine (left right : Diagnostics) : Diagnostics := ⟨left.first, left.rest ++ right.toList⟩

/-- The diagnostics of a list, combined from left to right; nothing for the empty list. -/
def ofList? : List Diagnostic → Option Diagnostics
  | [] => none
  | first :: rest =>
    some (rest.foldl (fun combined diagnostic => combined.combine (single diagnostic))
      (single first))

/-- The number of diagnostics. -/
def length (diagnostics : Diagnostics) : Nat := diagnostics.toList.length

/-- The diagnostics at a place. -/
def atPath (diagnostics : Diagnostics) (path : Path) : List Diagnostic :=
  diagnostics.toList.filter (·.path = path)

/-- The lines of the diagnostics. -/
def lines (diagnostics : Diagnostics) : List String := diagnostics.toList.map Diagnostic.text

/-- The lines joined by line feeds. -/
def text (diagnostics : Diagnostics) : String := "\n".intercalate diagnostics.lines

@[simp] theorem toList_single (diagnostic : Diagnostic) :
    (single diagnostic).toList = [diagnostic] := rfl

@[simp] theorem toList_combine (left right : Diagnostics) :
    (left.combine right).toList = left.toList ++ right.toList := rfl

/-- Combining single diagnostics one by one adds them at the end. -/
theorem toList_foldl_combine (diagnostics : Diagnostics) (added : List Diagnostic) :
    (added.foldl (fun combined diagnostic => combined.combine (single diagnostic))
      diagnostics).toList = diagnostics.toList ++ added := by
  induction added generalizing diagnostics with
  | nil => simp
  | cons diagnostic rest ih => simp [ih]

/-- The diagnostics of a list are those of the list. -/
theorem toList_ofList? (listed : List Diagnostic) :
    (ofList? listed).map toList = if listed = [] then none else some listed := by
  cases listed with
  | nil => rfl
  | cons first rest => simp [ofList?, toList_foldl_combine]

/-- Diagnostics are determined by their list. -/
theorem ext_toList {left right : Diagnostics} (same : left.toList = right.toList) :
    left = right := by
  cases left
  cases right
  simpa [toList] using same

end Diagnostics

end Conform

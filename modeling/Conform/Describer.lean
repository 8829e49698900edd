import Conform.Diagnostic
import Conform.Outcome
/-!
# Describing an outcome

A describer turns an outcome into diagnostics, one for each leaf of the tree, from left to right.
Properties and items add a step to the path, alternatives add none. The describer's widths bear on
one text only, that of the value found by a mismatch of value.
-/

namespace Conform

/-- How outcomes are described. -/
structure Describer where
  /-- The greatest number of characters of a found value that is written in full. -/
  maxWidth : Nat := 30
  /-- The number of characters kept of a longer one. -/
  keptWidth : Nat := 17
  /-- The text for an outcome without a diagnostic. -/
  successMarker : String := "OK"

namespace Describer

/-- The full text of a found value: kinds instead of values inside an object or array. -/
def outline : Literal → String
  | .json (.object members) =>
    "\x7b" ++ ",".intercalate
      (members.map fun (key, value) => key ++ ":" ++ (Kind.ofJson value).name) ++ "\x7d"
  | .json (.array elements) =>
    "[" ++ ",".intercalate (elements.map fun element => (Kind.ofJson element).name) ++ "]"
  | other => other.text

/-- A text within the widths; a longer one is cut, and three dots mark the cut. -/
def fit (describer : Describer) (text : String) : String :=
  if text.length > describer.maxWidth then
    String.ofList (text.toList.take describer.keptWidth) ++ "..."
  else text

/-- The text of a found value. -/
def foundText (describer : Describer) (found : Literal) : String := describer.fit (outline found)

mutual

/-- The diagnostics of the tree below a path. -/
def collect (describer : Describer) (path : Path) : Outcome → List Diagnostic
  | .valid => []
  | .wrongKind expected actual => [⟨path, .type, expected.name, actual.name⟩]
  | .wrongValue expected actual => [⟨path, .value, expected.text, describer.foundText actual⟩]
  | .inProperties properties => collectProperties describer path properties
  | .inAlternatives parts => collectParts describer path parts
  | .inItems items => collectItems describer path items

/-- The diagnostics of properties, each one step below the path. -/
def collectProperties (describer : Describer) (path : Path) :
    List (String × Outcome) → List Diagnostic
  | [] => []
  | (name, outcome) :: rest =>
    collect describer (path.push (.field name)) outcome ++ collectProperties describer path rest

/-- The diagnostics of alternatives, all at the path. -/
def collectParts (describer : Describer) (path : Path) : List Outcome → List Diagnostic
  | [] => []
  | outcome :: rest => collect describer path outcome ++ collectParts describer path rest

/-- The diagnostics of items, each one step below the path. -/
def collectItems (describer : Describer) (path : Path) : List (Nat × Outcome) → List Diagnostic
  | [] => []
  | (position, outcome) :: rest =>
    collect describer (path.push (.index position)) outcome ++ collectItems describer path rest

end

/-- The diagnostics of properties stand in the order of the properties. -/
theorem collectProperties_eq_flatMap (describer : Describer) (path : Path)
    (properties : List (String × Outcome)) :
    collectProperties describer path properties =
      properties.flatMap fun entry => collect describer (path.push (.field entry.1)) entry.2 := by
  induction properties with
  | nil => rfl
  | cons entry rest ih => simp [collectProperties, ih]

/-- The diagnostics of alternatives stand in the order of the alternatives. -/
theorem collectParts_eq_flatMap (describer : Describer) (path : Path) (parts : List Outcome) :
    collectParts describer path parts = parts.flatMap (collect describer path) := by
  induction parts with
  | nil => rfl
  | cons part rest ih => simp [collectParts, ih]

/-- The diagnostics of items stand in the order of the items. -/
theorem collectItems_eq_flatMap (describer : Describer) (path : Path)
    (items : List (Nat × Outcome)) :
    collectItems describer path items =
      items.flatMap fun entry => collect describer (path.push (.index entry.1)) entry.2 := by
  induction items with
  | nil => rfl
  | cons entry rest ih => simp [collectItems, ih]

/-- The diagnostics of an outcome, if there is one. -/
def diagnostics (describer : Describer) (outcome : Outcome) (root : String) : Option Diagnostics :=
  Diagnostics.ofList? (describer.collect (.ofRoot root) outcome)

/-- The lines of the diagnostics, or the success marker. -/
def describe (describer : Describer) (outcome : Outcome) (root : String) : String :=
  match describer.diagnostics outcome root with
  | some diagnostics => diagnostics.text
  | none => describer.successMarker

end Describer

end Conform

import Conform.Describer
import Conform.Shape.Check
import Conform.Store.Basic
/-!
# Evaluating shapes in a store

Evaluation checks a candidate against a shape and follows references through the store. A bound
limits how often a reference is followed inside what another one stands for; when it does not
suffice, that is an interruption of its own. `Store.evaluate` takes a bound that suffices wherever
following references ends at all: an entry that is entered inside itself for the same part of the
candidate is entered without end, so each part needs no more than one entrance for every entry.

On top of evaluation stand the questions that callers ask: whether a candidate is valid, which
diagnostics it has, and whether it may be passed on.
-/

namespace Conform

namespace Store

/-- Check candidates against what references stand for, with a bound on following them. -/
def follow (store : Store) : Nat → Follow
  | bound, reference, candidate =>
    match store.resolve reference with
    | .error error => .error (.unresolved error)
    | .ok shape =>
      match bound with
      | 0 => .error .exhausted
      | bound + 1 => shape.value.check (store.follow bound) candidate

/-- Check a candidate against a shape, with a bound on following references. -/
def evaluateWithin (store : Store) (bound : Nat) (shape : Shape) (candidate : Option Json) :
    Checked Outcome :=
  shape.check (store.follow bound) candidate

/-- The number of entries of all storages. -/
def entryCount (store : Store) : Nat := (store.cells.flatMap Cell.entries).length

/-- A bound on following references for a candidate. -/
def bound (store : Store) (candidate : Option Json) : Nat :=
  (store.entryCount + 1) * (Json.depth? candidate + 1)

/-- Check a candidate against a shape. -/
def evaluate (store : Store) (shape : Shape) (candidate : Option Json) : Checked Outcome :=
  store.evaluateWithin (store.bound candidate) shape candidate

/-- The outcome of a value. -/
def validate (store : Store) (shape : Shape) (value : Json) : Checked Outcome :=
  store.evaluate shape (some value)

/-- Whether a value is valid. -/
def isValid (store : Store) (shape : Shape) (value : Json) : Checked Bool := do
  return (← store.validate shape value).isValid

/-- The outcomes of several values, each on its own. -/
def validateAll (store : Store) (shape : Shape) (values : List Json) : Checked (List Outcome) :=
  values.mapM (store.validate shape)

/-- The value itself, or its diagnostics under a name. -/
def check (store : Store) (shape : Shape) (name : String) (value : Json) :
    Checked (Except Diagnostics Json) := do
  let outcome ← store.validate shape value
  let describer : Describer := {}
  match describer.diagnostics outcome name with
  | some diagnostics => return .error diagnostics
  | none => return .ok value

end Store

/-- What is known of a value that was asserted to be valid and is not. -/
structure AssertionError where
  /-- The name of the value. -/
  name : String
  /-- The description of the outcome, one mismatch a line. -/
  report : String
  /-- The outcome. -/
  outcome : Outcome

/-- The text of a failed assertion. -/
def AssertionError.message (error : AssertionError) : String :=
  "runtime type assertion failed for '" ++ error.name ++ "':\n" ++ error.report

/-- The value itself if it is valid, or what is known of its mismatches. -/
def Store.assert (store : Store) (shape : Shape) (name : String) (value : Json) :
    Checked (Except AssertionError Json) := do
  let outcome ← store.validate shape value
  if outcome.isValid then return .ok value
  let describer : Describer := {}
  return .error ⟨name, describer.describe outcome name, outcome⟩

end Conform

import Conform.Session.Plan
/-!
# Inspections

An inspection shows the outermost part of what a plan builds: the kind, the properties, the item
or the alternatives, and of every part no more than whether it is a shape or which key it refers
to. The summaries here are the texts of such a view.
-/

namespace Conform

/-- A name with fields in braces. -/
def recordSummary (name : String) (fields : List String) : String :=
  name ++ " \x7b " ++ ", ".intercalate fields ++ " \x7d"

/-- A list in square brackets. -/
def listSummary (elements : List String) : String := "[" ++ ", ".intercalate elements ++ "]"

/-- The summary of a kind. -/
def Kind.summary : Kind → String
  | .number => "Number"
  | .string => "String"
  | .boolean => "Boolean"
  | .null => "Null"
  | .object => "Object"
  | .array => "Array"
  | .undefined => "Undefined"

/-- The summary of a reference: its key. -/
def Reference.summary (reference : Reference) : String :=
  recordSummary "Provider" ["key: " ++ Text.quoted reference.key]

/-- The summary of a target. Nothing of a shape is shown. -/
def Target.summary : Target → String
  | .shape _ => "Validator(" ++ recordSummary "Validator" [".."] ++ ")"
  | .reference deferred => "Provider(" ++ deferred.summary ++ ")"

/-- The summary of a property: its name and target. -/
def Property.summary (property : Property) : String :=
  recordSummary "Property"
    ["name: " ++ Text.quoted property.name, "validator: " ++ property.target.summary, ".."]

/-- The summary of a registry: its keys. -/
def Registry.summary (registry : Registry) : String :=
  recordSummary "ValidatorRegistry" ["keys: " ++ Text.quotedList registry.keys, ".."]

/-- The outermost part of what a plan builds. -/
inductive Inspection where
  /-- A kind. -/
  | kind (expected : Kind)
  /-- The properties of an object. -/
  | object (properties : List Property)
  /-- The item of an array. -/
  | array (item : Target)
  /-- The alternatives of a union. -/
  | union (alternatives : List Target)
  /-- Anything else. -/
  | target (target : Target)

/-- The summary of an inspection. -/
def Inspection.summary : Inspection → String
  | .kind expected => recordSummary "KindValidator" ["expected: " ++ expected.summary]
  | .object properties =>
    recordSummary "PropsValidator"
      ["properties: " ++ listSummary (properties.map Property.summary)]
  | .array item => recordSummary "ArrayValidator" ["item: " ++ item.summary]
  | .union alternatives =>
    recordSummary "UnionValidator"
      ["alternatives: " ++ listSummary (alternatives.map Target.summary)]
  | .target built => built.summary

/-- Build a plan and show its outermost part. -/
def Plan.inspect (plan : Plan) : Action Inspection :=
  match plan with
  | .kind expected => return .kind expected
  | .object properties => do
    let properties ← PropertyPlan.buildAll none properties
    return .object properties.value
  | .array item => do
    let item ← item.build none
    return .array item.value
  | .union [] => throw .emptyUnion
  | .union alternatives => do
    let alternatives ← Plan.buildAll none alternatives
    return .union alternatives.value
  | other => do
    let target ← other.build none
    return .target target.value

end Conform

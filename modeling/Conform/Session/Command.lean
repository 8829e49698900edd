import Conform.Session.Inspection
/-!
# Commands

A command is one thing to do in a session, and its answer is what it gives back. A command that
ends with a fault binds nothing; what it noted and registered before stays. After every command
the session lets go of what is no longer kept.
-/

namespace Conform

/-- A candidate to evaluate, and how to describe its outcome. -/
structure Query where
  /-- The candidate. -/
  candidate : Option Json
  /-- The name of the candidate. -/
  root : String := "value"
  /-- How to describe the outcome. -/
  describer : Describer := {}

/-- The outcome of a query and its description. -/
structure Report where
  /-- The outcome. -/
  outcome : Outcome
  /-- The description. -/
  text : String

/-- One thing to do in a session. A slot takes the result of a command that succeeds. -/
inductive Command where
  /-- Evaluate a candidate. -/
  | evaluate (plan : Plan) (query : Query)
  /-- Pass a value on, or give its diagnostics. -/
  | check (plan : Plan) (name : String) (value : Json)
  /-- Pass a value on, or say that it is not valid. -/
  | assert (plan : Plan) (name : String) (value : Json)
  /-- Give the outcomes of several values. -/
  | batch (plan : Plan) (values : List Json)
  /-- Show the outermost part of a plan. -/
  | inspect (plan : Plan)
  /-- Construct a registry from definitions, finish it with a root, and evaluate candidates. -/
  | create (definitions : List (String × Plan)) (root : Plan) (queries : List Query)
      (slot : Option String)
  /-- Open a registry. -/
  | openRegistry (name : String)
  /-- Register a shape. -/
  | index (registry key : String) (plan : Plan) (slot : Option String)
  /-- Make a reference. -/
  | refer (registry key : String) (slot : Option String)
  /-- Build a plan. -/
  | build (plan : Plan) (slot : Option String)
  /-- Show a registry. -/
  | info (registry : String)
  /-- Ask whether a key has a shape. -/
  | contains (registry key : String)
  /-- Evaluate a candidate against the shape under a key. -/
  | fetch (registry key : String) (query : Query) (slot : Option String)
  /-- Evaluate a candidate against what the reference in a slot stands for. -/
  | resolve (reference : String) (query : Query) (slot : Option String)
  /-- Finish a registry with a root. -/
  | finish (registry : String) (plan : Plan) (slot : Option String)
  /-- Drop a registry. -/
  | dropRegistry (name : String)
  /-- Empty a slot. -/
  | dropSlot (name : String)

/-- What a command gives back. -/
inductive Answer where
  /-- The report on one candidate. -/
  | report (report : Report)
  /-- The reports on the candidates of a construction. -/
  | reports (reports : List Report)
  /-- A value, or its diagnostics. -/
  | checked (result : Except Diagnostics Json)
  /-- A value, or why it is not valid. -/
  | asserted (result : Except AssertionError Json)
  /-- The outcomes of several values. -/
  | outcomes (outcomes : List Outcome)
  /-- The outermost part of a plan. -/
  | inspection (inspection : Inspection)
  /-- A registry as it is now. -/
  | registry (registry : Registry)
  /-- A reference that was made. -/
  | reference (reference : Reference)
  /-- What a plan built. -/
  | built (target : Target)
  /-- Whether a key has a shape. -/
  | contains (found : Bool)
  /-- The report on a candidate, if the key has a shape. -/
  | found (report : Option Report)
  /-- The report on a candidate, if the reference was resolved. -/
  | resolved (result : Except RegistryError Report)
  /-- A registry was finished. -/
  | finished
  /-- A registry could not be finished. -/
  | refused (error : RegistryError)
  /-- Whether a name stood for something. -/
  | dropped (found : Bool)

namespace Action

/-- Answer a query about a shape. -/
def report (shape : Shape) (query : Query) : Action Report := do
  let outcome ← ofChecked ((← store).evaluate shape query.candidate)
  return ⟨outcome, query.describer.describe outcome query.root⟩

/-- Put definitions into the registry under construction, in order. -/
def define (id : StorageId) : List (String × Plan) → Action Unit
  | [] => return
  | (key, plan) :: rest => do
    let shape ← plan.shape (some id)
    modifyStore (·.index id key shape)
    define id rest

/-- Finish the registry of a storage. -/
def finish (id : StorageId) (root : HeldShape) : Action (Except RegistryError HeldShape) := do
  match (← store).finish? id root with
  | some (result, store) =>
    modify fun session => { session with store := store }
    return result
  | none => throw .noRegistry

end Action

/-- Do what a command says. -/
def Command.perform : Command → Action Answer
  | .evaluate plan query => do
    let shape ← plan.shape none
    return .report (← Action.report shape.value query)
  | .check plan name value => do
    let shape ← plan.shape none
    return .checked (← Action.ofChecked ((← Action.store).check shape.value name value))
  | .assert plan name value => do
    let shape ← plan.shape none
    return .asserted (← Action.ofChecked ((← Action.store).assert shape.value name value))
  | .batch plan values => do
    let shape ← plan.shape none
    return .outcomes (← Action.ofChecked ((← Action.store).validateAll shape.value values))
  | .inspect plan => return .inspection (← plan.inspect)
  | .create definitions root queries slot => do
    let id := (← Action.store).next
    Action.modifyStore Store.create
    Action.define id definitions
    let shape ← root.shape (some id)
    match ← Action.finish id shape with
    | .error error => return .refused error
    | .ok finished =>
      let reports ← queries.mapM (Action.report finished.value)
      Action.keep slot finished.target
      return .reports reports
  | .openRegistry name => do
    let id := (← Action.store).next
    Action.modifyStore Store.create
    modify fun session => { session with registries := session.registries.insert name id }
    return .registry (← Action.registry name)
  | .index registry key plan slot => do
    let target ← (Plan.index (some registry) key plan).build none
    let state ← Action.registry registry
    Action.keep slot target
    return .registry state
  | .refer registry key slot => do
    let reference : Reference := ⟨← Action.storage none (some registry), key⟩
    Action.modifyStore (·.refer reference)
    Action.keep slot (.of (.reference reference))
    return .reference reference
  | .build plan slot => do
    let target ← plan.build none
    Action.keep slot target
    return .built target.value
  | .info registry => return .registry (← Action.registry registry)
  | .contains registry key => return .contains ((← Action.registry registry).contains key)
  | .fetch registry key query slot => do
    match (← Action.registry registry).get? key with
    | none => return .found none
    | some shape =>
      let report ← Action.report shape.value query
      Action.keep slot shape.target
      return .found (some report)
  | .resolve name query slot => do
    match (← Action.slot name).value with
    | .shape _ => throw (.notReference name)
    | .reference reference =>
      match (← Action.store).resolve reference with
      | .error error => return .resolved (.error error)
      | .ok shape =>
        let report ← Action.report shape.value query
        Action.keep slot shape.target
        return .resolved (.ok report)
  | .finish registry plan slot => do
    let shape ← plan.shape none
    let id ← Action.storage none (some registry)
    modify fun session => { session with registries := session.registries.erase registry }
    match ← Action.finish id shape with
    | .error error => return .refused error
    | .ok finished =>
      Action.keep slot finished.target
      return .finished
  | .dropRegistry name => do
    let found := (← get).registries.has name
    modify fun session => { session with registries := session.registries.erase name }
    return .dropped found
  | .dropSlot name => do
    let found := (← get).slots.has name
    modify fun session => { session with slots := session.slots.erase name }
    return .dropped found

namespace Session

/-- Run a command and let go of what is no longer kept. -/
def run (session : Session) (command : Command) : Except Fault Answer × Session :=
  let (answer, after) := command.perform.run session
  (answer, after.settle)

end Session

end Conform

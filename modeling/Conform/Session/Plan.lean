import Conform.Session.Basic
/-!
# Plans

A plan describes how a shape or reference is built in a session. Building goes from left to right,
the parts before the whole, and has effects: a reference is noted in its registry, and an indexed
part is registered there. Where a part must be a shape and is a reference, the reference is
resolved on the spot; elsewhere it stays a reference.
-/

namespace Conform

mutual

/-- How to build a shape or reference. -/
inductive Plan where
  /-- A shape without parts, which is there already. -/
  | ready (leaf : Leaf)
  /-- The shape of a kind. -/
  | kind (expected : Kind)
  /-- The shape of an object with properties. -/
  | object (properties : List PropertyPlan)
  /-- The shape of an array. -/
  | array (item : Plan)
  /-- The union of alternatives. -/
  | union (alternatives : List Plan)
  /-- What may also be absent or `null`. -/
  | optional (inner : Plan)
  /-- A shape inside another one. -/
  | wrapped (inner : Plan)
  /-- A shape that is registered under a key as well. -/
  | index (registry : Option String) (key : String) (inner : Plan)
  /-- A reference to a key. -/
  | reference (registry : Option String) (key : String)
  /-- What a slot holds. -/
  | slot (name : String)

/-- How to build a property. -/
structure PropertyPlan where
  /-- The name of the property. -/
  name : String
  /-- The way from the object to the value. -/
  accessor : Accessor
  /-- How to build what the value has to be. -/
  plan : Plan

end

mutual

/-- Build a target. Registries without a name mean the one under construction. -/
def Plan.build (scope : Option StorageId) : Plan → Action HeldTarget
  | .ready leaf => return .of (.shape leaf.shape)
  | .kind expected => return .of (.shape (.kind expected))
  | .object properties => do
    let properties ← PropertyPlan.buildAll scope properties
    return (HeldShape.object properties).target
  | .array item => do
    let item ← Plan.build scope item
    return (HeldShape.array item).target
  | .union alternatives => do
    let alternatives ← Plan.buildAll scope alternatives
    match HeldShape.union? alternatives with
    | some shape => return shape.target
    | none => throw .emptyUnion
  | .optional inner => do
    let inner ← Plan.build scope inner
    return (HeldShape.optional inner).target
  | .wrapped inner => do
    let inner ← Plan.build scope inner
    let shape ← Action.shapeOf inner
    return (HeldShape.wrapped shape).target
  | .index registry key inner => do
    let inner ← Plan.build scope inner
    let shape ← Action.shapeOf inner
    let id ← Action.storage scope registry
    Action.modifyStore (·.index id key shape)
    return shape.target
  | .reference registry key => do
    let id ← Action.storage scope registry
    let reference : Reference := ⟨id, key⟩
    Action.modifyStore (·.refer reference)
    return .of (.reference reference)
  | .slot name => Action.slot name

/-- Build targets from left to right. -/
def Plan.buildAll (scope : Option StorageId) : List Plan → Action HeldTargets
  | [] => return .of []
  | plan :: rest => do
    let target ← Plan.build scope plan
    let targets ← Plan.buildAll scope rest
    return .cons target targets

/-- Build properties from left to right. -/
def PropertyPlan.buildAll (scope : Option StorageId) : List PropertyPlan → Action HeldProperties
  | [] => return .of []
  | ⟨name, accessor, plan⟩ :: rest => do
    let target ← Plan.build scope plan
    let properties ← PropertyPlan.buildAll scope rest
    return .cons name accessor target properties

end

/-- Build a shape; a plan for a reference gives the shape that it stands for. -/
def Plan.shape (scope : Option StorageId) (plan : Plan) : Action HeldShape := do
  let target ← plan.build scope
  Action.shapeOf target

end Conform

import Conform.Store.Evaluation
import Conform.Store.Ownership
/-!
# Sessions

A session is a store with names for what is held in it: registries that are open, and slots with
shapes and references. Actions on a session may end with a fault; what they did before the fault
stays done.
-/

namespace Conform

/-- Values by name, each name once. -/
abbrev Names (α : Type) := List (String × α)

namespace Names

/-- The names without one. -/
def erase {α : Type} (names : Names α) (name : String) : Names α :=
  names.filter fun entry => entry.1 ≠ name

/-- The names with one that stands for a value, whatever it stood for before. -/
def insert {α : Type} (names : Names α) (name : String) (value : α) : Names α :=
  (name, value) :: names.erase name

/-- Whether a name stands for something. -/
def has {α : Type} (names : Names α) (name : String) : Bool := (names.lookup name).isSome

end Names

/-- A store and the names of what is held in it. -/
structure Session where
  /-- Every storage. -/
  store : Store := {}
  /-- The storages of the open registries. -/
  registries : Names StorageId := []
  /-- The shapes and references in slots. -/
  slots : Names HeldTarget := []

/-- Why an action ends without a result. -/
inductive Fault where
  /-- A union of no alternative. -/
  | emptyUnion
  /-- A reference that could not be followed. -/
  | interrupted (cause : Interruption)
  /-- A name that stands for no open registry. -/
  | unknownRegistry (name : String)
  /-- No registry is named where none is under construction. -/
  | noRegistry
  /-- A name that stands for no slot. -/
  | unknownSlot (name : String)
  /-- A slot that holds no reference. -/
  | notReference (name : String)
deriving DecidableEq

/-- The text of a fault. -/
def Fault.message : Fault → String
  | .emptyUnion => "a union needs at least one alternative"
  | .interrupted cause => cause.message
  | .unknownRegistry name => "no open registry is named " ++ Text.quoted name
  | .noRegistry => "no registry is under construction"
  | .unknownSlot name => "no slot is named " ++ Text.quoted name
  | .notReference name => "no reference is in the slot " ++ Text.quoted name

/-- What is done in a session. A fault keeps the session as it was when the fault arose. -/
abbrev Action (α : Type) := ExceptT Fault (StateM Session) α

namespace Session

/-- What the names of a session hold. -/
def holdings (session : Session) : Holdings :=
  ⟨session.registries.map Prod.snd, session.slots.map Prod.snd⟩

/-- Let go of the storages that nothing in the session keeps. -/
def settle (session : Session) : Session :=
  { session with store := session.store.release session.holdings }

end Session

namespace Action

/-- The result of a check, or its interruption as a fault. -/
def ofChecked {α : Type} : Checked α → Action α
  | .ok value => pure value
  | .error cause => throw (.interrupted cause)

/-- The store. -/
def store : Action Store := return (← get).store

/-- Change the store. -/
def modifyStore (change : Store → Store) : Action Unit :=
  modify fun session => { session with store := change session.store }

/-- The storage of a registry by its name, or the one under construction where no name is given. -/
def storage (scope : Option StorageId) : Option String → Action StorageId
  | some name => do
    match (← get).registries.lookup name with
    | some id => return id
    | none => throw (.unknownRegistry name)
  | none =>
    match scope with
    | some id => return id
    | none => throw .noRegistry

/-- The registry of a name. -/
def registry (name : String) : Action Registry := do
  let id ← storage none (some name)
  match (← store).opened? id with
  | some registry => return registry
  | none => throw (.unknownRegistry name)

/-- What a slot holds. -/
def slot (name : String) : Action HeldTarget := do
  match (← get).slots.lookup name with
  | some target => return target
  | none => throw (.unknownSlot name)

/-- Put something into a slot, if a slot is named. -/
def keep (slot : Option String) (target : HeldTarget) : Action Unit :=
  match slot with
  | some name => modify fun session => { session with slots := session.slots.insert name target }
  | none => return

/-- The shape of a target; a reference is resolved on the spot. -/
def shapeOf : HeldTarget → Action HeldShape
  | ⟨.shape shape, keeps, mem_keeps⟩ => return ⟨shape, keeps, mem_keeps⟩
  | ⟨.reference reference, _, _⟩ => do
    match (← store).resolve reference with
    | .ok shape => return shape
    | .error error => throw (.interrupted (.unresolved error))

end Action

end Conform

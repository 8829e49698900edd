import Conform.Session.Command
import Conform.Proofs.History
/-!
# Reasoning about actions

`Action.Keeps` is the specification that actions are proved to meet: run in a sound session, the
action ends in a sound session again, whether it returns or ends with a fault, the two sessions
are related in a given way, and what it returns has a given property. There is one rule for every
way of putting actions together and one for every elementary action.
-/

namespace Conform

namespace Action

variable {α β : Type}

/-- Returning a value does nothing. -/
theorem run_pure (value : α) (session : Session) :
    (pure value : Action α).run session = (.ok value, session) := rfl

/-- A fault does nothing. -/
theorem run_throw (fault : Fault) (session : Session) :
    (throw fault : Action α).run session = (.error fault, session) := rfl

/-- The second of two actions runs where the first has ended, unless that was a fault. -/
theorem run_bind (action : Action α) (next : α → Action β) (session : Session) :
    (action >>= next).run session =
      match action.run session with
      | (.ok value, after) => (next value).run after
      | (.error fault, after) => (.error fault, after) := by
  simp only [ExceptT.run, bind, ExceptT.bind, ExceptT.mk, StateT.bind, ExceptT.bindCont]
  rcases action session with ⟨_ | _, after⟩ <;> rfl

/-- The session is read off as it is. -/
theorem run_get (session : Session) :
    (get : Action Session).run session = (.ok session, session) := rfl

/-- Changing the session changes it. -/
theorem run_modify (change : Session → Session) (session : Session) :
    (modify change : Action Unit).run session = (.ok ⟨⟩, change session) := rfl

/-- The store is read off as it is. -/
theorem run_store (session : Session) :
    Action.store.run session = (.ok session.store, session) := rfl

end Action

namespace Session

/-- Elementary changes have led from the store of a session to that of another one. -/
def Evolves (earlier later : Session) : Prop :=
  ∃ changes, earlier.store.History changes later.store

/-- A session has what another one has, with open registries grown maybe and anything in slots. -/
structure Grows (earlier later : Session) : Prop where
  /-- The store has grown. -/
  store : earlier.store.Grows later.store
  /-- The same registries are open, under the same names. -/
  registries : later.registries = earlier.registries
  /-- Growth is a way to evolve. -/
  evolves : earlier.Evolves later

namespace Evolves

/-- Nothing has to happen. -/
theorem refl (session : Session) : session.Evolves session := ⟨[], .nil⟩

/-- One change may follow another one. -/
theorem trans {earlier middle later : Session} (first : earlier.Evolves middle)
    (second : middle.Evolves later) : earlier.Evolves later := by
  obtain ⟨before, first⟩ := first
  obtain ⟨after, second⟩ := second
  exact ⟨before ++ after, first.trans second⟩

/-- An elementary change has happened. -/
theorem step {earlier later : Session} {change : Store.Change}
    (step : earlier.store.Step change later.store) : earlier.Evolves later :=
  ⟨[change], step.history⟩

/-- The storages have evolved. -/
theorem store {earlier later : Session} (evolves : earlier.Evolves later) :
    earlier.store.Evolves later.store := by
  obtain ⟨_, history⟩ := evolves
  exact history.evolves

end Evolves

/-- Nothing has to happen. -/
theorem Grows.refl (session : Session) : session.Grows session := ⟨.refl _, rfl, .refl _⟩

/-- Growth adds up. -/
instance : Trans Grows Grows Grows where
  trans first second := ⟨first.store.trans second.store,
    second.registries.trans first.registries, first.evolves.trans second.evolves⟩

/-- One change may follow another one. -/
instance : Trans Evolves Evolves Evolves where
  trans := Evolves.trans

end Session

/-- The action keeps a session sound, relates it to the one at the end, and returns nothing but
values with a property there. -/
structure Action.Keeps {α : Type} (Relates : Session → Session → Prop) (session : Session)
    (action : Action α) (post : Session → α → Prop) : Prop where
  /-- The session at the end is sound. -/
  sound : (action.run session).2.Sound
  /-- It is related to the one at the beginning. -/
  related : Relates session (action.run session).2
  /-- What is returned has the property. -/
  returns : ∀ value, (action.run session).1 = .ok value → post (action.run session).2 value

namespace Action.Keeps

variable {α β : Type} {Relates Relates' : Session → Session → Prop} {session : Session}

/-- A run that is known. -/
theorem of_run {action : Action α} {result : Except Fault α} {after : Session}
    {post : Session → α → Prop} (run : action.run session = (result, after)) (sound : after.Sound)
    (related : Relates session after) (returns : ∀ value, result = .ok value → post after value) :
    Keeps Relates session action post := by
  constructor
  · rw [run]
    exact sound
  · rw [run]
    exact related
  · rw [run]
    exact returns

/-- Returning a value. -/
protected theorem pure {value : α} {post : Session → α → Prop} (sound : session.Sound)
    (related : Relates session session) (holds : post session value) :
    Keeps Relates session (pure value) post :=
  of_run (run_pure value session) sound related fun _ same => Except.ok.inj same ▸ holds

/-- Ending with a fault. -/
protected theorem throw {fault : Fault} {post : Session → α → Prop} (sound : session.Sound)
    (related : Relates session session) :
    Keeps Relates session (throw fault : Action α) post :=
  of_run (run_throw fault session) sound related nofun

/-- One action after another. -/
protected theorem bind [Trans Relates Relates Relates] {action : Action α} {next : α → Action β}
    {middle : Session → α → Prop} {post : Session → β → Prop}
    (first : Keeps Relates session action middle)
    (second : ∀ between value, between.Sound → Relates session between → middle between value →
      Keeps Relates between (next value) post) :
    Keeps Relates session (action >>= next) post := by
  have run := run_bind action next session
  rcases ended : action.run session with ⟨result, between⟩
  obtain ⟨sound, related, returns⟩ := first
  rw [ended] at run sound related returns
  cases result with
  | error fault => exact of_run run sound related nofun
  | ok value =>
    obtain ⟨sound', related', returns'⟩ := second between value sound related (returns value rfl)
    exact of_run run sound' (Trans.trans related related') returns'

/-- Making something of what an action returns, about which nothing more is to be known. -/
theorem answer [Trans Relates Relates Relates] {action : Action α} {middle : Session → α → Prop}
    (keeps : Keeps Relates session action middle) (refl : ∀ session, Relates session session)
    (make : α → β) :
    Keeps Relates session (action >>= fun value => pure (make value)) fun _ _ => True := by
  apply Keeps.bind keeps
  intro between value sound _ _
  exact .pure sound (refl between) trivial

/-- A weaker relation and a weaker property. -/
theorem imp {action : Action α} {post post' : Session → α → Prop}
    (keeps : Keeps Relates session action post)
    (related : ∀ after, Relates session after → Relates' session after)
    (returns : ∀ after value, Relates session after → post after value → post' after value) :
    Keeps Relates' session action post' :=
  ⟨keeps.sound, related _ keeps.related,
    fun value same => returns _ value keeps.related (keeps.returns value same)⟩

/-- Growth, remembered where only evolution is asked for. -/
theorem evolves {action : Action α} {post : Session → α → Prop}
    (keeps : Keeps Session.Grows session action post) :
    Keeps Session.Evolves session action fun after value =>
      session.Grows after ∧ post after value :=
  keeps.imp (fun _ grows => grows.evolves) fun _ _ grows holds => ⟨grows, holds⟩

/-- Reading the session. -/
protected theorem get (sound : session.Sound) :
    Keeps Session.Grows session (get : Action Session) fun after value => value = after :=
  of_run (run_get session) sound (.refl session) fun _ same => (Except.ok.inj same).symm

/-- Reading the store. -/
protected theorem store (sound : session.Sound) :
    Keeps Session.Grows session Action.store fun after value => value = after.store :=
  of_run (run_store session) sound (.refl session) fun _ same => (Except.ok.inj same).symm

/-- Changing the session, where something is to be known of the changed one. -/
theorem modify_of {change : Session → Session} {post : Session → Unit → Prop}
    (sound : (change session).Sound) (related : Relates session (change session))
    (holds : post (change session) ⟨⟩) : Keeps Relates session (modify change) post :=
  of_run (run_modify change session) sound related fun _ _ => holds

/-- Changing the session. -/
protected theorem modify {change : Session → Session} (sound : (change session).Sound)
    (related : Relates session (change session)) :
    Keeps Relates session (modify change) fun after _ => after = change session :=
  modify_of sound related rfl

/-- Taking over the result of a check. -/
theorem ofChecked (sound : session.Sound) (checked : Checked α) :
    Keeps Session.Grows session (Action.ofChecked checked) fun _ value => checked = .ok value := by
  cases checked with
  | ok value => exact .pure sound (.refl session) rfl
  | error cause => exact .throw sound (.refl session)

/-- Looking up a registry by its name. -/
theorem storage_named (sound : session.Sound) (scope : Option StorageId) (name : String) :
    Keeps Session.Grows session (Action.storage scope (some name)) fun after id =>
      after.registries.lookup name = some id := by
  apply Keeps.bind (.get sound)
  intro between value sound _ same
  subst same
  cases found : value.registries.lookup name with
  | some id => exact .pure sound (.refl value) found
  | none => exact .throw sound (.refl value)

/-- Reading a slot. -/
theorem slot (sound : session.Sound) (name : String) :
    Keeps Session.Grows session (Action.slot name) fun after target =>
      after.store.Admits target.value := by
  apply Keeps.bind (.get sound)
  intro between value sound _ same
  subst same
  cases found : value.slots.lookup name with
  | none => exact .throw sound (.refl value)
  | some target => exact .pure sound (.refl value) (sound.slots _ (mem_of_lookup found))

/-- Filling a slot, if one is named. -/
theorem keep (sound : session.Sound) (slot : Option String) (target : HeldTarget)
    (admits : session.store.Admits target.value) :
    Keeps Session.Grows session (Action.keep slot target) fun after _ =>
      ∀ name, slot = some name → after.slots.lookup name = some target := by
  cases slot with
  | none => exact .pure sound (.refl session) nofun
  | some name =>
    apply modify_of (sound.insertSlot name admits) ⟨.refl _, rfl, .refl session⟩
    intro other same
    rw [Option.some.inj same, Names.insert, List.lookup_cons_self]

/-- Looking at a registry by its name. -/
theorem registry (sound : session.Sound) (name : String) :
    Keeps Session.Grows session (Action.registry name) fun after registry =>
      ∃ id, after.store.cell id = .opened registry := by
  apply Keeps.bind (.storage_named sound none name)
  intro between id sound _ named
  apply Keeps.bind (.store sound)
  intro last store sound _ same
  subst same
  simp only [Store.opened?]
  cases state : last.store.cell id with
  | opened registry => exact .pure sound (.refl last) ⟨id, state⟩
  | finished entries => exact .throw sound (.refl last)
  | released => exact .throw sound (.refl last)

/-- Taking a shape, of a reference the one that it stands for. -/
theorem shapeOf (sound : session.Sound) {target : HeldTarget}
    (admits : session.store.Admits target.value) :
    Keeps Session.Grows session (Action.shapeOf target) fun after shape =>
      after.store.Admits (.shape shape.value) := by
  rcases target with ⟨_ | reference, keeps, mem_keeps⟩
  · exact .pure sound (.refl session) admits
  · apply Keeps.bind (.store sound)
    intro between store sound _ same
    subst same
    cases resolved : between.store.resolve reference with
    | error error => exact .throw sound (.refl between)
    | ok shape => exact .pure sound (.refl between) (sound.admits_of_resolve resolved)

/-- Registering an admitted shape in an open registry. -/
theorem index (sound : session.Sound) {id : StorageId} (key : String) {shape : HeldShape}
    (opened : ∃ registry, session.store.cell id = .opened registry)
    (admits : session.store.Admits (.shape shape.value)) :
    Keeps Session.Grows session (Action.modifyStore (·.index id key shape)) fun after _ =>
      after.store.Admits (.shape shape.value) := by
  have grows : session.store.Grows (session.store.index id key shape) :=
    session.store.grows_modifyRegistry id _ fun registry => registry.extends_index key shape
  obtain ⟨registry, state⟩ := opened
  exact modify_of (sound.index id key admits) ⟨grows, rfl, .step (.index state key admits)⟩
    (admits.retains grows.retains)

/-- Noting a reference to an open registry. -/
theorem refer (sound : session.Sound) (reference : Reference)
    (opened : ∃ registry, session.store.cell reference.storage = .opened registry) :
    Keeps Session.Grows session (Action.modifyStore (·.refer reference)) fun after _ =>
      after.store.Admits (.reference reference) := by
  have grows : session.store.Grows (session.store.refer reference) :=
    session.store.grows_modifyRegistry reference.storage _ fun registry =>
      registry.extends_refer reference.key
  obtain ⟨registry, state⟩ := opened
  exact modify_of (sound.refer reference) ⟨grows, rfl, .step (.refer state)⟩
    (.reference (Store.notes_refer state))

/-- Answering a query. -/
theorem report (sound : session.Sound) (shape : Shape) (query : Query) :
    Keeps Session.Grows session (Action.report shape query) fun _ _ => True := by
  apply Keeps.bind (.store sound)
  intro between store sound _ _
  exact (ofChecked sound _).answer .refl _

/-- Answering a query about an admitted shape, and then filling a slot with it. -/
theorem report_keep (sound : session.Sound) {shape : HeldShape}
    (admits : session.store.Admits (.shape shape.value)) (query : Query) (slot : Option String)
    (make : Report → α) :
    Keeps Session.Grows session (do
      let report ← Action.report shape.value query
      Action.keep slot shape.target
      return make report) fun _ _ => True := by
  apply Keeps.bind (report sound shape.value query)
  intro between report sound grows _
  have still := admits.retains grows.store.retains
  exact (keep sound slot shape.target still).answer .refl _

end Action.Keeps

end Conform

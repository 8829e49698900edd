import Conform.Proofs.Calls
import Conform.Proofs.Soundness
/-!
# The history of a store

Whatever is done to a store is made of four elementary changes: a registry is created, a call is
made on an open one, an open one is finished, and what nothing keeps is let go of. The history of a
store is the list of these changes. It says which calls were made on every registry, and the
entries of a storage are the ones that these calls lead to, for as long as the storage is kept.
-/

namespace Conform

namespace Store

open Registry

/-- An elementary change of a store. -/
inductive Change where
  /-- A registry is created. -/
  | create
  /-- A call is made on the registry of a storage. -/
  | call (id : StorageId) (call : Call)
  /-- The registry of a storage is finished, successfully or not. -/
  | finish (id : StorageId) (root : HeldShape)
  /-- What is not kept by something held is let go of. -/
  | release (holdings : Holdings)

/-- The call that a change makes on the registry of a storage. -/
def Change.callOn? (id : StorageId) : Change → Option Call
  | .call other made => if other = id then some made else none
  | _ => none

/-- The calls that changes make on the registry of a storage, in their order. -/
def callsOn (id : StorageId) (changes : List Change) : List Call :=
  changes.filterMap (Change.callOn? id)

/-- A change that makes no call on a registry adds none. -/
theorem callsOn_concat_of_silent {id : StorageId} {change : Change}
    (silent : change.callOn? id = none) {changes : List Change} :
    callsOn id (changes ++ [change]) = callsOn id changes := by
  simp [callsOn, List.filterMap_append, silent]

/-- A call comes behind the earlier ones on its registry. -/
theorem callsOn_concat_same {id : StorageId} {last : Call} {changes : List Change} :
    callsOn id (changes ++ [.call id last]) = callsOn id changes ++ [last] := by
  simp [callsOn, List.filterMap_append, Change.callOn?]

/-- What was registered by some changes was registered when more changes followed. -/
theorem mem_indexed_append {id : StorageId} {entry : String × HeldShape} {first : List Change}
    (second : List Change) (member : entry ∈ indexed (callsOn id first)) :
    entry ∈ indexed (callsOn id (first ++ second)) := by
  rw [callsOn, List.filterMap_append, indexed, List.filterMap_append]
  exact List.mem_append_left _ member

/-- What was registered first under the key of a reference, in its registry. -/
def firstIndexed (changes : List Change) (reference : Reference) : Option HeldShape :=
  (indexed (callsOn reference.storage changes)).lookup reference.key

/-- A change leads from one store to another one. Calls are made on open registries only, and the
finished roots in a shape that is registered are those of finished storages. -/
inductive Step : Store → Change → Store → Prop
  /-- A registry is created. -/
  | create {store : Store} : Step store .create store.create
  /-- A call is made on an open registry. -/
  | call {store : Store} {id : StorageId} {registry : Registry} {call : Call}
      (opened : store.cell id = .opened registry)
      (rooted : ∀ key shape, call.indexed? = some (key, shape) → ∀ root ∈ shape.value.roots,
        ∃ entries, store.cell root = .finished entries) :
      Step store (.call id call) (store.call id call)
  /-- An open registry is finished. -/
  | finish {store later : Store} {id : StorageId} {root : HeldShape}
      {answer : Except RegistryError HeldShape}
      (finished : store.finish? id root = some (answer, later)) : Step store (.finish id root) later
  /-- Some storages are let go of. -/
  | release {store : Store} {holdings : Holdings} :
      Step store (.release holdings) (store.release holdings)

/-- Changes, one after another, lead from one store to another one. -/
inductive History (earlier : Store) : List Change → Store → Prop
  /-- Nothing has happened. -/
  | nil : History earlier [] earlier
  /-- One more change has happened. -/
  | snoc {changes : List Change} {middle later : Store} {change : Change}
      (before : History earlier changes middle) (step : middle.Step change later) :
      History earlier (changes ++ [change]) later

/-- One history may follow another one. -/
theorem History.trans {earlier middle later : Store} {first second : List Change}
    (before : earlier.History first middle) (after : middle.History second later) :
    earlier.History (first ++ second) later := by
  induction after with
  | nil =>
    rw [List.append_nil]
    exact before
  | snoc _ step ih =>
    rw [← List.append_assoc]
    exact .snoc ih step

/-- A single change is a history. -/
theorem Step.history {earlier later : Store} {change : Change}
    (step : earlier.Step change later) : earlier.History [change] later :=
  .snoc .nil step

/-- Registering an admitted shape is an elementary change. -/
theorem Step.index {store : Store} {id : StorageId} {registry : Registry}
    (opened : store.cell id = .opened registry) (key : String) {shape : HeldShape}
    (admits : store.Admits (.shape shape.value)) :
    store.Step (.call id (.index key shape)) (store.index id key shape) := by
  apply Step.call opened
  intro _ _ same root kept
  cases same
  obtain ⟨inner, contains⟩ := (Target.mem_roots_iff (.shape shape.value) root).mp kept
  exact admits.roots root inner contains

/-- Noting a reference is an elementary change. -/
theorem Step.refer {store : Store} {reference : Reference} {registry : Registry}
    (opened : store.cell reference.storage = .opened registry) :
    store.Step (.call reference.storage (.refer reference.key)) (store.refer reference) :=
  @Step.call _ _ registry (.refer reference.key) opened nofun

/-- A call leaves the other storages alone. -/
theorem cell_call_other {store : Store} {id other : StorageId} (different : id ≠ other)
    (last : Call) : (store.call id last).cell other = store.cell other := by
  rw [call_eq_modifyRegistry]
  exact store.cell_modifyRegistry_of_ne different _

/-- Calls leave the other storages alone. -/
theorem cell_callAll_other {store : Store} {id other : StorageId} (different : id ≠ other)
    (calls : List Call) : (store.callAll id calls).cell other = store.cell other := by
  induction calls generalizing store with
  | nil => rfl
  | cons first rest ih => exact ih.trans (cell_call_other different first)

/-- Finishing decides on an open storage by its registry: the storage is finished with all that
the registry had, or released. -/
theorem finish?_eq_some_iff {store later : Store} {id : StorageId} {root : HeldShape}
    {answer : Except RegistryError HeldShape} :
    store.finish? id root = some (answer, later) ↔
      ∃ registry, store.cell id = .opened registry ∧
        ((registry.finish = .ok registry.entries ∧ answer = .ok (.finished id root) ∧
            later = store.setCell id (.finished registry.entries)) ∨
          ∃ error, registry.finish = .error error ∧ answer = .error error ∧
            later = store.setCell id .released) := by
  unfold finish? opened?
  cases state : store.cell id with
  | finished entries => simp
  | released => simp
  | opened registry =>
    cases accepted : registry.finish with
    | error error => simp [eq_comm, accepted]
    | ok entries =>
      obtain ⟨_, _, rfl⟩ := (finish_eq_ok_iff registry entries).mp accepted
      simp [eq_comm, accepted]

/-- Finishing a registry successfully is an elementary change. -/
theorem Step.accept {store : Store} {id : StorageId} {registry : Registry}
    (opened : store.cell id = .opened registry) (root : HeldShape) {entries : Entries}
    (accepted : registry.finish = .ok entries) :
    store.Step (.finish id root) (store.setCell id (.finished entries)) := by
  obtain ⟨_, _, rfl⟩ := (finish_eq_ok_iff registry entries).mp accepted
  exact .finish (finish?_eq_some_iff.mpr ⟨registry, opened, .inl ⟨accepted, rfl, rfl⟩⟩)

/-- Failing to finish a registry is an elementary change. -/
theorem Step.refuse {store : Store} {id : StorageId} {registry : Registry}
    (opened : store.cell id = .opened registry) (root : HeldShape) {error : RegistryError}
    (refused : registry.finish = .error error) :
    store.Step (.finish id root) (store.setCell id .released) :=
  .finish (finish?_eq_some_iff.mpr ⟨registry, opened, .inr ⟨error, refused, rfl, rfl⟩⟩)

/-- A storage keeps its state or is let go of. -/
theorem cell_releaseRounds_eq_or (store : Store) (holdings : Holdings) (rounds : Nat)
    (id : StorageId) :
    (store.releaseRounds holdings rounds).cell id = store.cell id ∨
      (store.releaseRounds holdings rounds).cell id = .released := by
  induction rounds generalizing store with
  | zero => exact .inl rfl
  | succ rounds ih =>
    have once : (store.releaseOnce holdings).cell id = store.cell id ∨
        (store.releaseOnce holdings).cell id = .released := by
      rw [cell_releaseOnce]
      exact keep_eq_or holdings (store.rooted holdings) id (store.cell id)
    simp only [releaseRounds]
    split
    · exact once
    · rcases ih (store.releaseOnce holdings) with same | gone
      · rw [same]
        exact once
      · exact .inr gone

/-- Every elementary change is a way to evolve. -/
theorem Step.evolves {earlier later : Store} {change : Change}
    (step : earlier.Step change later) : earlier.Evolves later := by
  cases step with
  | create => exact earlier.evolves_create
  | @call id _ call opened _ =>
    rw [call_eq_modifyRegistry]
    exact (earlier.grows_modifyRegistry id _ fun registry => registry.extends_call call).evolves
  | finish finished =>
    obtain ⟨registry, opened, ⟨accepted, _, rfl⟩ | ⟨error, _, _, rfl⟩⟩ :=
      finish?_eq_some_iff.mp finished
    · exact earlier.evolves_setCell (opened ▸ .finished (.refl registry) accepted)
    · exact earlier.evolves_setCell (opened ▸ .released)
  | release => exact earlier.evolves_releaseRounds _ _

/-- Every history is a way to evolve. -/
theorem History.evolves {earlier later : Store} {changes : List Change}
    (history : earlier.History changes later) : earlier.Evolves later := by
  induction history with
  | nil => exact .refl earlier
  | snoc _ step ih => exact ih.trans step.evolves

/-- What an elementary change of a store does to the storage of a number, which is in the given
state then. -/
inductive Change.Effect (store : Store) (id : StorageId) : Change → Cell → Prop
  /-- It leaves the storage as it is. -/
  | kept {change : Change} (silent : change.callOn? id = none) :
      Effect store id change (store.cell id)
  /-- It creates the storage. -/
  | created (new : store.cells.length ≤ id) : Effect store id .create (.opened {})
  /-- It makes a call on the open registry of the storage. -/
  | called {registry : Registry} {call : Call} (opened : store.cell id = .opened registry)
      (rooted : ∀ key shape, call.indexed? = some (key, shape) → ∀ root ∈ shape.value.roots,
        ∃ entries, store.cell root = .finished entries) :
      Effect store id (.call id call) (.opened (registry.call call))
  /-- It finishes the open registry of the storage. -/
  | accepted {registry : Registry} {root : HeldShape} (opened : store.cell id = .opened registry) :
      Effect store id (.finish id root) (.finished registry.entries)
  /-- It releases the storage. -/
  | released {change : Change} (silent : change.callOn? id = none) :
      Effect store id change .released

/-- Every elementary change has such an effect on every storage. -/
theorem Step.effect {store later : Store} {change : Change} (step : store.Step change later)
    (id : StorageId) : change.Effect store id (later.cell id) := by
  cases step with
  | create =>
    by_cases new : id = store.next
    · rw [new, store.cell_create_next]
      exact .created (Nat.le_refl _)
    · rw [store.cell_create_of_ne new]
      exact .kept rfl
  | @call other registry last opened rooted =>
    by_cases same : other = id
    · subst same
      rw [cell_call_same opened]
      exact .called opened rooted
    · rw [cell_call_other same]
      exact .kept (by simp [Change.callOn?, same])
  | release =>
    rw [Store.release]
    rcases store.cell_releaseRounds_eq_or _ store.cells.length id with same | gone
    · rw [same]
      exact .kept rfl
    · rw [gone]
      exact .released rfl
  | @finish _ closed root answer finished =>
    obtain ⟨registry, opened, ended⟩ := finish?_eq_some_iff.mp finished
    have present : closed < store.cells.length := lt_length_of_cell opened nofun
    by_cases same : closed = id
    · subst same
      rcases ended with ⟨_, _, rfl⟩ | ⟨_, _, _, rfl⟩
      · rw [cell_setCell_same _ _ _ present]
        exact .accepted opened
      · rw [cell_setCell_same _ _ _ present]
        exact .released rfl
    · have other : later.cell id = store.cell id := by
        rcases ended with ⟨_, _, rfl⟩ | ⟨_, _, _, rfl⟩ <;>
          exact cell_setCell_other _ _ _ _ same
      rw [other]
      exact .kept rfl

/-- The storages of a store have what the calls in its history lead to. -/
structure Records (store : Store) (changes : List Change) : Prop where
  /-- An open registry is the one of the calls on it. -/
  opened : ∀ id registry, store.cell id = .opened registry →
    registry = ofCalls (callsOn id changes)
  /-- A finished storage has the entries of that registry. -/
  finished : ∀ id entries, store.cell id = .finished entries →
    entries = (ofCalls (callsOn id changes)).entries
  /-- Nothing is called on what was not created. -/
  created : ∀ id, store.cells.length ≤ id → callsOn id changes = []

/-- Every elementary change is recorded. -/
theorem Records.step {store later : Store} {changes : List Change}
    (records : store.Records changes) {change : Change} (step : store.Step change later) :
    later.Records (changes ++ [change]) := by
  constructor
  case opened =>
    intro id after state
    have effect := step.effect id
    rw [state] at effect
    generalize same : Cell.opened after = cell at effect
    cases effect with
    | kept silent =>
      rw [callsOn_concat_of_silent silent]
      exact records.opened id after same.symm
    | created new =>
      rw [callsOn_concat_of_silent rfl, records.created id new]
      exact Cell.opened.inj same
    | called opened _ =>
      rw [callsOn_concat_same, ofCalls_concat, ← records.opened id _ opened]
      exact Cell.opened.inj same
    | accepted | released => cases same
  case finished =>
    intro id entries state
    have effect := step.effect id
    rw [state] at effect
    generalize same : Cell.finished entries = cell at effect
    cases effect with
    | kept silent =>
      rw [callsOn_concat_of_silent silent]
      exact records.finished id entries same.symm
    | accepted opened =>
      rw [callsOn_concat_of_silent rfl, ← records.opened id _ opened]
      exact Cell.finished.inj same
    | created | called | released => cases same
  case created =>
    intro id absent
    have before : store.cells.length ≤ id := Nat.le_trans step.evolves.created absent
    have effect := step.effect id
    generalize later.cell id = cell at effect
    cases effect with
    | kept silent | released silent =>
      rw [callsOn_concat_of_silent silent]
      exact records.created id before
    | created | accepted =>
      rw [callsOn_concat_of_silent rfl]
      exact records.created id before
    | called opened _ =>
      exact absurd (lt_length_of_cell opened nofun) (Nat.not_lt.mpr before)

/-- The history of a store from the beginning records the calls on every registry. -/
theorem History.records {store : Store} {changes : List Change}
    (history : History {} changes store) : store.Records changes := by
  induction history with
  | nil => exact ⟨nofun, nofun, fun _ _ => rfl⟩
  | snoc _ step ih => exact ih.step step

/-- A reference into a storage that is kept stands for what was registered first under its key. -/
theorem History.resolve_eq {store : Store} {changes : List Change}
    (history : History {} changes store) {reference : Reference}
    (kept : store.cell reference.storage ≠ .released) :
    store.resolve reference =
      match firstIndexed changes reference with
      | some shape => .ok shape
      | none => .error (.unresolvedKey reference.key) := by
  have found : (store.cell reference.storage).entries.lookup reference.key =
      firstIndexed changes reference := by
    rw [firstIndexed, ← get?_ofCalls]
    cases state : store.cell reference.storage with
    | opened registry =>
      rw [← history.records.opened _ registry state]
      rfl
    | finished entries =>
      rw [Cell.entries, history.records.finished _ entries state]
      rfl
    | released => exact absurd state kept
  unfold resolve
  cases state : store.cell reference.storage with
  | released => exact absurd state kept
  | opened _ | finished _ =>
    rw [state] at found
    cases first : firstIndexed changes reference with
    | none => simp only [found, first]
    | some shape => simp only [found, first]

end Store

end Conform

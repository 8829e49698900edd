import Mathlib
import Conform.Proofs.Command
/-!
# Evaluation is stable

An outcome that evaluation returns stays the same, whatever happens in the session, as long as the
storages of the references in the graph are kept. A registry keeps its storage while it is open,
under all that is registered or referred to, and after it was finished a finished root keeps it.
-/

namespace Conform

/-- A command registers a shape in the registry of a name, or makes a reference to it. -/
def Command.Feeds (name : String) : Command → Prop
  | .index registry .. => registry = name
  | .refer registry .. => registry = name
  | _ => False

/-- Such a command leaves the registries open. -/
theorem Command.Feeds.stays {name : String} {command : Command} (feeds : command.Feeds name) :
    command.Stays := by
  cases command with
  | index | refer => exact trivial
  | _ => exact feeds.elim

namespace Session

/-- Something in a session keeps a storage: the name of its registry, or a finished root. -/
def Keeps (session : Session) (id : StorageId) : Prop :=
  id ∈ session.registries.map Prod.snd ∨ ∃ root, session.Has (.shape (.finished id root))

variable {session : Session}

/-- What is kept is not released. -/
theorem Sound.present (sound : session.Sound) {id : StorageId} (kept : session.Keeps id) :
    session.store.cell id ≠ .released := by
  rcases kept with named | ⟨root, alive⟩
  · obtain ⟨entry, listed, rfl⟩ := List.mem_map.mp named
    obtain ⟨registry, opened⟩ := sound.registries entry listed
    simp [opened]
  · obtain ⟨entries, finished⟩ := (sound.admits alive).roots id root .refl
    simp [finished]

/-- Commands that leave the registries open leave them under their names. -/
theorem Sound.registries_after (sound : session.Sound) {commands : List Command}
    (stay : ∀ command ∈ commands, command.Stays) :
    (session.after commands).registries = session.registries := by
  induction commands generalizing session with
  | nil => rfl
  | cons command rest ih =>
    have stays := stay command List.mem_cons_self
    have same : (session.run command).2.registries = session.registries :=
      (command.perform_grows stays sound).related.registries
    exact (ih (sound.run command) fun other member => stay other (.tail _ member)).trans same

/-- What was returned once is returned again after any commands, if the storages of the references
in the graph are kept. -/
theorem Sound.evaluate_after (sound : session.Sound) {shape : Shape} {candidate : Option Json}
    {outcome : Outcome} (returned : session.store.evaluate shape candidate = .ok outcome)
    (commands : List Command)
    (kept : ∀ reference, session.store.Reaches (.shape shape) (.reference reference) →
      (session.after commands).Keeps reference.storage) :
    (session.after commands).store.evaluate shape candidate = .ok outcome :=
  Store.Evolves.evaluate_eq_ok (sound.evolves_after commands).store
    (fun reference reaches => (sound.after commands).present (kept reference reaches)) returned

/-- In every session that commands lead to, an outcome that evaluation returns is returned again
after any commands that leave the storages in the graph kept. When all references in the graph are
to one registry, that is the case after registering and referring to anything there, and also once
the registry was finished successfully, as long as the finished root is alive. -/
theorem evaluate_stable (reachable : session.Reachable) {shape : Shape}
    {candidate : Option Json} {outcome : Outcome}
    (returned : session.store.evaluate shape candidate = .ok outcome) :
    (∀ commands,
      (∀ reference, session.store.Reaches (.shape shape) (.reference reference) →
        (session.after commands).Keeps reference.storage) →
      (session.after commands).store.evaluate shape candidate = .ok outcome) ∧
    ∀ name id, session.registries.lookup name = some id →
      (∀ reference, session.store.Reaches (.shape shape) (.reference reference) →
        reference.storage = id) →
      ∀ commands, (∀ command ∈ commands, command.Feeds name) →
        (session.after commands).store.evaluate shape candidate = .ok outcome ∧
        ∀ plan slot, ((session.after commands).run (.finish name plan (some slot))).1 =
            .ok .finished →
          let finished := ((session.after commands).run (.finish name plan (some slot))).2
          ∃ root, finished.Has (.shape (.finished id root)) ∧
            ∀ further, (finished.after further).Has (.shape (.finished id root)) →
              (finished.after further).store.evaluate shape candidate = .ok outcome := by
  have sound := reachable.sound
  constructor
  · intro commands kept
    exact sound.evaluate_after returned commands kept
  · intro name id named own commands feed
    have registries : (session.after commands).registries = session.registries :=
      sound.registries_after fun command member => (feed command member).stays
    constructor
    · apply sound.evaluate_after returned commands
      intro reference reaches
      rw [Keeps, own reference reaches, registries]
      exact .inl (List.mem_map.mpr ⟨(name, id), mem_of_lookup named, rfl⟩)
    · intro plan slot succeeded finished
      obtain ⟨other, root, same, alive⟩ := (sound.after commands).has_of_run_finish succeeded
      rw [registries, named] at same
      obtain rfl := Option.some.inj same
      have later (further : List Command) : finished.after further =
          session.after (commands ++ .finish name plan (some slot) :: further) := by
        simp only [after, List.foldl_append, List.foldl_cons, finished]
      use root, alive
      intro further still
      rw [later] at still ⊢
      apply sound.evaluate_after returned
      intro reference reaches
      rw [Keeps, own reference reaches]
      exact .inr ⟨root, still⟩

/-- A tree is valid and stays valid when something else is registered, and also when the registry
is finished then, as long as the finished root is alive. -/
theorem evaluate_tree_stable :
    let value : Json := .object [("children", .array [.object [("children", .array [])]])]
    let later := trees.after [.index "shapes" "Leaf" (.ready .number) none,
      .refer "shapes" "Leaf" (some "leaf")]
    later.store.evaluate (.tree 0) (some value) = .ok .valid ∧
      let finished := (later.run (.finish "shapes" (.reference (some "shapes") "Tree")
        (some "tree"))).2
      ∃ root, finished.Has (.shape (.finished 0 root)) ∧
        ∀ further, (finished.after further).Has (.shape (.finished 0 root)) →
          (finished.after further).store.evaluate (.tree 0) (some value) = .ok .valid := by
  intro value later
  have returned : trees.store.evaluate (.tree 0) (some value) = .ok .valid := by cbv
  have stands : trees.store.resolve ⟨0, "Tree"⟩ = .ok (.of (.tree 0)) := by cbv
  have own (reference : Reference)
      (reaches : trees.store.Reaches (.shape (.tree 0)) (.reference reference)) :
      reference.storage = 0 := by
    rcases Store.reaches_tree stands reaches with same | same | same <;> cases same
    rfl
  have feed : ∀ command ∈ [Command.index "shapes" "Leaf" (.ready .number) none,
      .refer "shapes" "Leaf" (some "leaf")], command.Feeds "shapes" := by
    simp [Command.Feeds]
  have reachable : trees.Reachable := ⟨_, rfl⟩
  have stable := (evaluate_stable reachable returned).2 "shapes" 0 (by cbv) own _ feed
  exact ⟨stable.1, stable.2 (.reference (some "shapes") "Tree") "tree" (by cbv)⟩

end Session

end Conform

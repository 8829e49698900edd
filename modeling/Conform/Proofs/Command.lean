import Conform.Proofs.Building
/-!
# Running commands

Every command keeps a session sound and lets its store evolve, whether it succeeds or ends with a
fault. So all that is known of sound sessions holds of every session that commands lead to, and
what happens between two points of a run is an evolution of the store.
-/

namespace Conform

/-- A command neither opens nor closes a registry. -/
def Command.Stays : Command → Prop
  | .create .. | .openRegistry _ | .finish .. | .dropRegistry _ => False
  | _ => True

/-- A command that neither opens nor closes a registry grows the session. -/
theorem Command.perform_grows {command : Command} (stays : command.Stays) {session : Session}
    (sound : session.Sound) :
    Action.Keeps Session.Grows session command.perform fun _ _ => True := by
  have constructs : session.Constructs none := nofun
  cases command with
  | create | openRegistry | finish | dropRegistry => exact stays.elim
  | evaluate plan query =>
    apply Action.Keeps.bind (plan.shape_keeps none sound constructs)
    intro _ shape sound _ _
    exact (Action.Keeps.report sound shape.value query).answer .refl _
  | check plan name value | assert plan name value | batch plan values =>
    apply Action.Keeps.bind (plan.shape_keeps none sound constructs)
    intro _ shape sound _ _
    apply Action.Keeps.bind (.store sound)
    intro _ store sound _ _
    exact (Action.Keeps.ofChecked sound _).answer .refl _
  | inspect plan => exact (plan.inspect_keeps sound).answer .refl _
  | index registry key plan slot =>
    apply Action.Keeps.bind (Plan.build_keeps none _ sound constructs)
    intro _ target sound _ admits
    apply Action.Keeps.bind (.registry sound registry)
    intro _ state sound grows _
    have still := admits.retains grows.store.retains
    exact (Action.Keeps.keep sound slot target still).answer .refl _
  | refer registry key slot =>
    apply Action.Keeps.bind (.storage sound constructs (some registry))
    intro _ id sound _ opened
    apply Action.Keeps.bind (.refer sound ⟨id, key⟩ opened)
    intro _ _ sound _ admits
    exact (Action.Keeps.keep sound slot (.of (.reference ⟨id, key⟩)) admits).answer .refl _
  | build plan slot =>
    apply Action.Keeps.bind (plan.build_keeps none sound constructs)
    intro _ target sound _ admits
    exact (Action.Keeps.keep sound slot target admits).answer .refl _
  | info registry | contains registry key =>
    exact (Action.Keeps.registry sound registry).answer .refl _
  | fetch registry key query slot =>
    apply Action.Keeps.bind (.registry sound registry)
    intro between state sound _ opened
    cases found : state.get? key with
    | none => exact .pure sound (.refl _) trivial
    | some shape =>
      obtain ⟨id, opened⟩ := opened
      have resolved : between.store.resolve ⟨id, key⟩ = .ok shape := by
        rw [Store.resolve_eq_ok_iff, opened]
        exact found
      exact .report_keep sound (sound.admits_of_resolve resolved) query slot _
  | resolve name query slot =>
    apply Action.Keeps.bind (.slot sound name)
    intro _ target sound _ _
    split
    · exact .throw sound (.refl _)
    · apply Action.Keeps.bind (.store sound)
      intro between store sound _ same
      subst same
      split
      · exact .pure sound (.refl _) trivial
      · rename_i shape resolved
        exact .report_keep sound (sound.admits_of_resolve resolved) query slot _
  | dropSlot name =>
    apply Action.Keeps.bind (.get sound)
    intro between _ sound _ _
    have grows : between.Grows { between with slots := between.slots.erase name } :=
      ⟨.refl _, rfl, .refl between⟩
    exact (Action.Keeps.modify (sound.eraseSlot name) grows).answer .refl _

/-- A storage that does not exist yet has no name. -/
theorem Session.Sound.unnamed_next {session : Session} (sound : session.Sound) :
    session.store.next ∉ session.registries.map Prod.snd := by
  intro member
  obtain ⟨entry, listed, same⟩ := List.mem_map.mp member
  obtain ⟨registry, opened⟩ := sound.registries entry listed
  have created : entry.2 < session.store.cells.length :=
    Store.lt_length_of_cell opened nofun
  exact Nat.ne_of_lt created same

/-- Finishing an open registry is decided by the registry alone. -/
theorem Action.run_finish {session : Session} {id : StorageId} {registry : Registry}
    (opened : session.store.cell id = .opened registry) (root : HeldShape) :
    (Action.finish id root).run session =
      match registry.finish with
      | .ok entries =>
        (.ok (.ok (.finished id root)),
          { session with store := session.store.setCell id (.finished entries) })
      | .error error =>
        (.ok (.error error), { session with store := session.store.setCell id .released }) := by
  simp only [Action.finish, run_bind, run_store, Store.finish?, Store.opened?, opened,
    Option.map_some]
  cases registry.finish <;> rfl

namespace Action.Keeps

variable {session : Session}

/-- Creating a storage. -/
theorem create (sound : session.Sound) :
    Keeps Session.Evolves session (Action.modifyStore Store.create) fun after _ =>
      after.store.cell session.store.next = .opened {} ∧
        after.registries = session.registries := by
  have evolves : session.Evolves { session with store := session.store.create } := .step .create
  exact modify_of sound.create evolves ⟨session.store.cell_create_next, rfl⟩

/-- Putting definitions into the registry under construction. -/
theorem define {id : StorageId} (definitions : List (String × Plan)) (sound : session.Sound)
    (constructs : session.Constructs (some id)) :
    Keeps Session.Grows session (Action.define id definitions) fun _ _ => True := by
  induction definitions generalizing session with
  | nil => exact .pure sound (.refl session) trivial
  | cons definition rest ih =>
    apply Action.Keeps.bind (definition.2.shape_keeps (some id) sound constructs)
    intro between shape sound grows admits
    have still := constructs.grows grows
    apply Action.Keeps.bind (.index sound definition.1 (still id rfl) admits)
    intro last _ sound further _
    exact ih sound (still.grows further)

/-- Answering queries one after another. -/
theorem reports (shape : Shape) (queries : List Query) (sound : session.Sound) :
    Keeps Session.Grows session (queries.mapM (Action.report shape)) fun _ _ => True := by
  induction queries generalizing session with
  | nil => exact .pure sound (.refl session) trivial
  | cons query rest ih =>
    rw [List.mapM_cons]
    apply Action.Keeps.bind (.report sound shape query)
    intro _ _ sound _ _
    exact (ih sound).answer .refl _

/-- Finishing a registry that has no name any more. -/
theorem finish {id : StorageId} {root : HeldShape} (sound : session.Sound)
    (opened : ∃ registry, session.store.cell id = .opened registry)
    (unnamed : id ∉ session.registries.map Prod.snd)
    (admits : session.store.Admits (.shape root.value)) :
    Keeps Session.Evolves session (Action.finish id root) fun after result =>
      (∀ finished, result = .ok finished →
        finished.value = .finished id root.value ∧ after.store.Admits (.shape finished.value)) ∧
      ∀ error, result = .error error → after.store.Lost id := by
  obtain ⟨registry, opened⟩ := opened
  have run := Action.run_finish opened root
  have created : id < session.store.cells.length := Store.lt_length_of_cell opened nofun
  cases accepted : registry.finish with
  | error error =>
    rw [accepted] at run
    have evolves : (Cell.opened registry).Evolves .released := .released
    apply of_run run (sound.close opened unnamed evolves nofun)
      (.step (.refuse opened root accepted))
    intro result same
    obtain rfl := Except.ok.inj same
    exact ⟨nofun, fun _ _ => Store.lost_setCell created⟩
  | ok entries =>
    rw [accepted] at run
    have evolves : (Cell.opened registry).Evolves (.finished entries) :=
      .finished (.refl registry) accepted
    have same : entries = registry.entries := ((registry.finish_eq_ok_iff entries).mp accepted).2.2
    apply of_run run (sound.close opened unnamed evolves fun entry member => same ▸ member)
      (.step (.accept opened root accepted))
    intro result returned
    obtain rfl := Except.ok.inj returned
    refine ⟨?_, nofun⟩
    intro finished same
    obtain rfl := Except.ok.inj same
    have retains := session.store.retains_setCell opened evolves
    have state := Store.cell_setCell_same session.store id (.finished entries) created
    exact ⟨rfl, (admits.retains retains).finished state⟩

end Action.Keeps

namespace Command

variable {session : Session}

/-- Finishing a registry keeps the session sound. When it succeeds, the slot, if one is named, has
a finished root of the storage that the name stood for; when it is refused, that storage is lost. -/
theorem perform_finish (registry : String) (plan : Plan) (slot : Option String)
    (sound : session.Sound) :
    Action.Keeps Session.Evolves session (Command.finish registry plan slot).perform
      fun after answer => (∀ name, answer = .finished → slot = some name →
        ∃ id root target, session.registries.lookup registry = some id ∧
          after.slots.lookup name = some target ∧ target.value = .shape (.finished id root)) ∧
        ∀ error, answer = .refused error →
          ∃ id, session.registries.lookup registry = some id ∧ after.store.Lost id := by
  apply Action.Keeps.bind (plan.shape_keeps none sound nofun).evolves
  rintro second shape sound - ⟨grows, admits⟩
  apply Action.Keeps.bind (Action.Keeps.storage_named sound none registry).evolves
  rintro third id sound - ⟨further, named⟩
  have opened := sound.opened_of_lookup named
  have unnamed := sound.unnamed_erase named
  have still := admits.retains further.store.retains
  have before : session.registries.lookup registry = some id := by
    rw [← grows.registries, ← further.registries]
    exact named
  apply Action.Keeps.bind (.modify (sound.eraseRegistry registry) (.refl third))
  rintro fourth - sound - rfl
  apply Action.Keeps.bind (.finish sound opened unnamed still)
  rintro fifth result sound - ⟨finished, refused⟩
  cases result with
  | error error =>
    apply Action.Keeps.pure sound (.refl fifth)
    exact ⟨nofun, fun _ _ => ⟨id, before, refused error rfl⟩⟩
  | ok root =>
    obtain ⟨isRoot, admitted⟩ := finished root rfl
    apply Action.Keeps.bind (Action.Keeps.keep sound slot root.target admitted).evolves
    rintro last - sound - ⟨-, kept⟩
    apply Action.Keeps.pure sound (.refl last)
    refine ⟨?_, nofun⟩
    intro name _ same
    exact ⟨id, shape.value, root.target, before, kept name same, congrArg Target.shape isRoot⟩

/-- Constructing a registry keeps the session sound. When it is refused, the storage that was
created for it is lost. -/
theorem perform_create (definitions : List (String × Plan)) (root : Plan) (queries : List Query)
    (slot : Option String) (sound : session.Sound) :
    Action.Keeps Session.Evolves session (Command.create definitions root queries slot).perform
      fun after answer => ∀ error, answer = .refused error →
        after.store.Lost session.store.next := by
  apply Action.Keeps.bind (Action.Keeps.store sound).evolves
  rintro second _ sound - ⟨before, rfl⟩
  have number : second.store.next = session.store.next := before.store.created.symm
  have absent := sound.unnamed_next
  apply Action.Keeps.bind (.create sound)
  rintro third - sound - ⟨state, same⟩
  have constructs : third.Constructs (some second.store.next) :=
    fun _ given => ⟨_, Option.some.inj given ▸ state⟩
  apply Action.Keeps.bind (Action.Keeps.define definitions sound constructs).evolves
  rintro fourth - sound - ⟨grows, -⟩
  have still := constructs.grows grows
  apply Action.Keeps.bind (root.shape_keeps _ sound still).evolves
  rintro fifth shape sound - ⟨further, admits⟩
  have unnamed : second.store.next ∉ fifth.registries.map Prod.snd := by
    rw [further.registries, grows.registries, same]
    exact absent
  apply Action.Keeps.bind (.finish sound (still.grows further _ rfl) unnamed admits)
  rintro sixth result sound - ⟨finished, refused⟩
  cases result with
  | error error =>
    apply Action.Keeps.pure sound (.refl sixth)
    intro _ _
    exact number ▸ refused error rfl
  | ok root =>
    obtain ⟨_, admitted⟩ := finished root rfl
    apply Action.Keeps.bind (Action.Keeps.reports root.value queries sound).evolves
    rintro seventh reports sound - ⟨grows, -⟩
    have kept := admitted.retains grows.store.retains
    apply Action.Keeps.bind (Action.Keeps.keep sound slot root.target kept).evolves
    rintro last - sound - -
    exact .pure sound (.refl last) nofun

/-- Opening a registry keeps the session sound. -/
theorem perform_openRegistry (name : String) (sound : session.Sound) :
    Action.Keeps Session.Evolves session (Command.openRegistry name).perform fun _ _ => True := by
  apply Action.Keeps.bind (Action.Keeps.store sound).evolves
  rintro second _ sound - ⟨-, rfl⟩
  have absent := sound.unnamed_next
  apply Action.Keeps.bind (.create sound)
  rintro third - sound - ⟨state, same⟩
  have named := sound.insertRegistry name state (same ▸ absent)
  apply Action.Keeps.bind (.modify named (.refl third))
  intro fourth _ sound _ _
  exact (Action.Keeps.registry sound name).evolves.answer .refl _

/-- Dropping a registry keeps the session sound. -/
theorem perform_dropRegistry (name : String) (sound : session.Sound) :
    Action.Keeps Session.Evolves session (Command.dropRegistry name).perform fun _ _ => True := by
  apply Action.Keeps.bind (Action.Keeps.get sound).evolves
  intro second _ sound _ _
  apply Action.Keeps.bind (.modify (sound.eraseRegistry name) (.refl second))
  intro last _ sound _ _
  exact .pure sound (.refl last) trivial

/-- Every command keeps the session sound and lets it evolve, also when it ends with a fault. -/
theorem perform_evolves (command : Command) (sound : session.Sound) :
    Action.Keeps Session.Evolves session command.perform fun _ _ => True := by
  by_cases stays : command.Stays
  · have grows := perform_grows stays sound
    exact grows.imp (fun _ related => related.evolves) fun _ _ _ _ => trivial
  · cases command with
    | create definitions root queries slot =>
      have creates := perform_create definitions root queries slot sound
      exact creates.imp (fun _ related => related) fun _ _ _ _ => trivial
    | openRegistry name => exact perform_openRegistry name sound
    | finish registry plan slot =>
      have finishes := perform_finish registry plan slot sound
      exact finishes.imp (fun _ related => related) fun _ _ _ _ => trivial
    | dropRegistry name => exact perform_dropRegistry name sound
    | _ => exact absurd trivial stays

end Command

namespace Session

/-- The session after commands, one after another. -/
def after (session : Session) (commands : List Command) : Session :=
  commands.foldl (fun session command => (session.run command).2) session

/-- A session that commands lead to. -/
def Reachable (session : Session) : Prop := ∃ commands, after {} commands = session

variable {session : Session}

/-- Running a command leaves a session sound. -/
theorem Sound.run (sound : session.Sound) (command : Command) : (session.run command).2.Sound :=
  (command.perform_evolves sound).sound.settle

/-- Running a command is a way to evolve. -/
theorem Sound.evolves_run (sound : session.Sound) (command : Command) :
    session.Evolves (session.run command).2 :=
  (command.perform_evolves sound).related.trans (.step .release)

/-- Running commands leaves a session sound. -/
theorem Sound.after (sound : session.Sound) (commands : List Command) :
    (session.after commands).Sound := by
  induction commands generalizing session with
  | nil => exact sound
  | cons command rest ih => exact ih (sound.run command)

/-- Running commands is a way to evolve. -/
theorem Sound.evolves_after (sound : session.Sound) (commands : List Command) :
    session.Evolves (session.after commands) := by
  induction commands generalizing session with
  | nil => exact .refl session
  | cons command rest ih =>
    exact (sound.evolves_run command).trans (ih (sound.run command))

/-- Every session that commands lead to is sound. -/
theorem Reachable.sound (reachable : session.Reachable) : session.Sound := by
  obtain ⟨commands, rfl⟩ := reachable
  exact Sound.empty.after commands

/-- Further commands lead to a session that commands lead to. -/
theorem Reachable.after (reachable : session.Reachable) (commands : List Command) :
    (session.after commands).Reachable := by
  obtain ⟨earlier, rfl⟩ := reachable
  exact ⟨earlier ++ commands, List.foldl_append⟩

/-- One more command leads to a session that commands lead to. -/
theorem Reachable.run (reachable : session.Reachable) (command : Command) :
    (session.run command).2.Reachable :=
  reachable.after [command]

/-- A registry that is finished successfully leaves a finished root of its storage in the slot. -/
theorem Sound.has_of_run_finish (sound : session.Sound) {name slot : String} {plan : Plan}
    (succeeded : (session.run (.finish name plan (some slot))).1 = .ok .finished) :
    ∃ id root, session.registries.lookup name = some id ∧
      (session.run (.finish name plan (some slot))).2.Has (.shape (.finished id root)) := by
  have finishes := Command.perform_finish name plan (some slot) sound
  obtain ⟨id, root, target, named, found, isRoot⟩ :=
    (finishes.returns _ succeeded).1 slot rfl rfl
  have listed : (slot, target) ∈ (session.run (.finish name plan (some slot))).2.slots :=
    mem_of_lookup found
  exact ⟨id, root, named, .slot listed (isRoot ▸ .refl)⟩

/-- The session in which the shape of trees was registered, and nothing else has happened. -/
def trees : Session :=
  after {} [.openRegistry "shapes", .index "shapes" "Tree" (.object [⟨"children",
    .ofSteps [.field "children"], .array (.reference (some "shapes") "Tree")⟩]) none]

end Session

end Conform

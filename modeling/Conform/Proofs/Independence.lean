import Mathlib
import Conform.Proofs.Lifetime
import Conform.Proofs.Sparing
/-!
# Registries are independent

What a command registers, notes, opens, finishes or drops is told by the names of registries that
occur in it, so a command in which no name of a registry occurs does nothing to that registry,
whatever keys the two have in common. At most its storage is let go of, if it was finished before
and nothing keeps it any more. So a registry has the same entries, and will be finished in the same
way, after any commands on others; and as long as its storage is kept, its references stand for the
same shapes, and what has no other references evaluates alike.
-/

namespace Conform

variable {id : StorageId} {session : Session}

/-- The names of the registries that a command works on: the ones in its plans, and the one that it
opens, finishes or drops. What it only looks at is not among them. -/
def Command.touched : Command → List String
  | .evaluate plan _ | .check plan _ _ | .assert plan _ _ | .batch plan _ | .inspect plan
  | .build plan _ => plan.touched
  | .create definitions root _ _ =>
    (definitions.flatMap fun definition => definition.2.touched) ++ root.touched
  | .index registry key plan _ => (Plan.index (some registry) key plan).touched
  | .finish registry plan _ => plan.touched ++ [registry]
  | .openRegistry registry | .refer registry _ _ | .dropRegistry registry => [registry]
  | .info _ | .contains _ _ | .fetch _ _ _ _ | .resolve _ _ _ | .dropSlot _ => []

namespace Action.Spares

/-- Putting definitions into another registry. -/
theorem define {other : StorageId} (different : other ≠ id) (definitions : List (String × Plan))
    (apart : session.Apart id (definitions.flatMap fun definition => definition.2.touched)) :
    Spares id session (Action.define other definitions) fun _ => True := by
  induction definitions generalizing session with
  | nil => exact .pure ()
  | cons definition rest ih =>
    rw [List.flatMap_cons] at apart
    have elsewhere : some other ≠ some id := fun same => different (Option.some.inj same)
    apply Action.Spares.bind (definition.2.shape_spares elsewhere apart.left)
    intro between shape spares _
    apply Action.Spares.bind (.index different definition.1 shape)
    intro last _ further _
    exact ih ((apart.right.spared spares).spared further)

end Action.Spares

/-- A command spares every storage that there is and for which none of its names stands. -/
theorem Command.perform_spares {command : Command} (created : id < session.store.cells.length)
    (apart : session.Apart id command.touched) :
    Action.Spares id session command.perform fun _ => True := by
  have different : session.store.next ≠ id := Nat.ne_of_gt created
  have elsewhere : none ≠ some id := nofun
  cases command with
  | evaluate plan query =>
    apply Action.Spares.bind (plan.shape_spares elsewhere apart)
    intro _ shape _ _
    exact (Action.Spares.of_reads (.report shape.value query)).answer _
  | check plan name value | assert plan name value | batch plan values =>
    apply Action.Spares.bind (plan.shape_spares elsewhere apart)
    intro _ shape _ _
    apply Action.Spares.bind (.of_reads .store)
    intro _ store _ _
    exact (Action.Spares.of_reads (.ofChecked _)).answer _
  | inspect plan => exact (plan.inspect_spares apart).answer _
  | create definitions root queries slot =>
    apply Action.Spares.bind_of_run (Action.run_store session)
    apply Action.Spares.bind (.create created)
    intro second _ spares _
    have still := Session.Apart.spared apart spares
    apply Action.Spares.bind (.define different definitions still.left)
    intro third _ further _
    have elsewhere : some session.store.next ≠ some id :=
      fun same => different (Option.some.inj same)
    apply Action.Spares.bind (root.shape_spares elsewhere (still.right.spared further))
    intro fourth shape _ _
    apply Action.Spares.bind (.finish different shape)
    intro fifth result _ _
    cases result with
    | error error => exact .pure _
    | ok finished =>
      apply Action.Spares.bind (.of_reads (.reports finished.value queries))
      intro sixth reports _ _
      exact (Action.Spares.keep slot finished.target).answer _
  | openRegistry name =>
    apply Action.Spares.bind_of_run (Action.run_store session)
    apply Action.Spares.bind (.create created)
    intro second _ spares _
    have named := Session.spares_insert (Session.Apart.spared apart spares) different
    apply Action.Spares.bind (.modify named)
    intro third _ _ _
    exact (Action.Spares.of_reads (.registry name)).answer _
  | index registry key plan slot =>
    apply Action.Spares.bind (Plan.build_spares elsewhere _ apart)
    intro second target _ _
    apply Action.Spares.bind (.of_reads (.registry registry))
    intro third state _ _
    exact (Action.Spares.keep slot target).answer _
  | refer registry key slot =>
    apply Action.Spares.bind (.storage elsewhere apart)
    intro second other _ different
    apply Action.Spares.bind (.refer different)
    intro third _ _ _
    exact (Action.Spares.keep slot _).answer _
  | build plan slot =>
    apply Action.Spares.bind (plan.build_spares elsewhere apart)
    intro second target _ _
    exact (Action.Spares.keep slot target).answer _
  | info registry | contains registry key =>
    exact (Action.Spares.of_reads (.registry registry)).answer _
  | fetch registry key query slot =>
    apply Action.Spares.bind (.of_reads (.registry registry))
    intro second state _ _
    cases state.get? key with
    | none => exact .pure _
    | some shape =>
      apply Action.Spares.bind (.of_reads (.report shape.value query))
      intro third report _ _
      exact (Action.Spares.keep slot shape.target).answer _
  | resolve name query slot =>
    apply Action.Spares.bind (.of_reads (.slot name))
    intro second target _ _
    split
    · exact .of_reads (.throw _)
    · apply Action.Spares.bind (.of_reads .store)
      intro third store _ _
      split
      · exact .pure _
      · rename_i shape _
        apply Action.Spares.bind (.of_reads (.report shape.value query))
        intro last report _ _
        exact (Action.Spares.keep slot shape.target).answer _
  | finish registry plan slot =>
    apply Action.Spares.bind (plan.shape_spares elsewhere (Session.Apart.left apart))
    intro second shape spares _
    have named := (Session.Apart.right apart).spared spares
    apply Action.Spares.bind (.storage elsewhere named)
    intro third other further different
    apply Action.Spares.bind (.modify (Session.spares_erase (named.spared further)))
    intro fourth _ _ _
    apply Action.Spares.bind (.finish different shape)
    intro fifth result _ _
    cases result with
    | error error => exact .pure _
    | ok finished => exact (Action.Spares.keep slot finished.target).answer _
  | dropRegistry name =>
    apply Action.Spares.bind_of_run (Action.run_get session)
    exact (Action.Spares.modify (Session.spares_erase apart)).answer _
  | dropSlot name =>
    apply Action.Spares.bind_of_run (Action.run_get session)
    exact (Action.Spares.modify ⟨.inl rfl, fun _ => .rfl⟩).answer _

namespace Session

/-- Running a command spares every storage that there is and for which none of its names stands. -/
theorem spares_run {command : Command} (created : id < session.store.cells.length)
    (apart : session.Apart id command.touched) : session.Spares id (session.run command).2 :=
  (command.perform_spares created apart).spares.trans (spares_settle id _)

/-- Running commands spares every storage that there is and for which none of their names stands at
the beginning, since none comes to stand for it. -/
theorem Sound.spares_after (sound : session.Sound) {commands : List Command}
    (created : id < session.store.cells.length)
    (apart : ∀ command ∈ commands, session.Apart id command.touched) :
    session.Spares id (session.after commands) := by
  induction commands generalizing session with
  | nil => exact .refl id session
  | cons command rest ih =>
    obtain ⟨first, others⟩ := List.forall_mem_cons.mp apart
    have spares := spares_run created first
    have grown := (sound.evolves_run command).store.created
    exact spares.trans (ih (sound.run command) (Nat.lt_of_lt_of_le created grown)
      fun other member => (others other member).spared spares)

/-- A storage that was not released is kept. -/
theorem Reachable.keeps_of_present (reachable : session.Reachable) (id : StorageId)
    (present : session.store.cell id ≠ .released) : session.Keeps id := by
  by_contra lost
  apply present
  refine (reachable.released_iff id).mpr ⟨fun named => lost (.inl named), ?_⟩
  exact fun root live => lost (.inr ⟨root, live.has⟩)

/-- A storage that is spared is in the same state if it is kept now, or was not kept before. -/
theorem Spares.cell_eq (reachable : session.Reachable) {later : Session}
    (spares : session.Spares id later) (sound : later.Sound)
    (still : session.Keeps id → later.Keeps id) :
    later.store.cell id = session.store.cell id := by
  rcases spares.cell with same | released
  · exact same
  · rw [released]
    by_contra present
    have kept := reachable.keeps_of_present id (Ne.symm present)
    exact sound.present (still kept) released

/-- Let a registry have been created, and let commands follow in which no name of it occurs,
whatever other registries they open, register in, make references to, finish or drop, under
whatever keys. It then has the same name. If it is open, it is the same registry as before, with the
same keys in the same order, and finishing it will have the same result. And unless these commands
let go of what kept its storage, its references are resolved to the same shapes or fail alike, and
every shape from which no other references are reachable evaluates alike for every candidate. -/
theorem registries_do_not_interfere (reachable : session.Reachable)
    (created : id < session.store.cells.length) {commands : List Command}
    (apart : ∀ command ∈ commands, session.Apart id command.touched) :
    let later := session.after commands
    (∀ name, later.registries.lookup name = some id ↔ session.registries.lookup name = some id) ∧
    (∀ name, session.registries.lookup name = some id →
      later.store.opened? id = session.store.opened? id ∧
      ∀ root, (later.store.finish? id root).map Prod.fst =
        (session.store.finish? id root).map Prod.fst) ∧
    ((session.Keeps id → later.Keeps id) →
      (∀ key, later.store.resolve ⟨id, key⟩ = session.store.resolve ⟨id, key⟩) ∧
      ∀ shape, (∀ reference, session.store.Reaches (.shape shape) (.reference reference) →
          reference.storage = id) →
        ∀ candidate, later.store.evaluate shape candidate =
          session.store.evaluate shape candidate) := by
  intro later
  have sound := reachable.sound.after commands
  have spares := reachable.sound.spares_after created apart
  refine ⟨spares.names, fun name named => ?_, fun still => ?_⟩
  · have listed : id ∈ later.registries.map Prod.snd :=
      List.mem_map.mpr ⟨(name, id), mem_of_lookup ((spares.names name).mpr named), rfl⟩
    have same : later.store.cell id = session.store.cell id :=
      spares.cell_eq reachable sound fun _ => .inl listed
    have opened : later.store.opened? id = session.store.opened? id := by
      simp only [Store.opened?, same]
    refine ⟨opened, fun root => ?_⟩
    simp only [Store.finish?, opened, Option.map_map]
    congr 1
    funext registry
    simp only [Function.comp]
    cases registry.finish <;> rfl
  · have same : later.store.cell id = session.store.cell id :=
      spares.cell_eq reachable sound still
    have resolved (key : String) :
        later.store.resolve ⟨id, key⟩ = session.store.resolve ⟨id, key⟩ := by
      simp only [Store.resolve, same]
    refine ⟨resolved, fun shape own candidate => ?_⟩
    apply Store.evaluate_congr_of_reaches
    rintro ⟨storage, key⟩ reaches
    obtain rfl : storage = id := own _ reaches
    exact resolved key

/-- The session of the shape of trees, where another registry has its key for something else. -/
def treesAndOthers : Session :=
  trees.after [.openRegistry "others", .index "others" "Tree" (.ready .number) none]

/-- When the other registry gets the key once more and finishing it is refused, the registry of the
shape of trees is the same as before, and trees evaluate alike. -/
theorem trees_beside_refused_others :
    let again : Command := .index "others" "Tree" (.ready .string) none
    let refused : Command := .finish "others" (.ready .number) none
    let later := treesAndOthers.after [again, refused]
    ((treesAndOthers.after [again]).run refused).1 = .ok (.refused (.duplicateKey "Tree")) ∧
      later.store.opened? 0 = treesAndOthers.store.opened? 0 ∧
      ∀ candidate, later.store.evaluate (.tree 0) candidate =
        treesAndOthers.store.evaluate (.tree 0) candidate := by
  intro again refused later
  have reachable : treesAndOthers.Reachable := Reachable.after ⟨_, rfl⟩ _
  have named : treesAndOthers.registries.lookup "shapes" = some 0 := by cbv
  have apart : ∀ command ∈ [again, refused], treesAndOthers.Apart 0 command.touched := by
    have other : treesAndOthers.registries.lookup "others" = some 1 := by cbv
    intro command member
    have touched : command.touched = ["others"] := by
      simp only [List.mem_cons, List.not_mem_nil, or_false] at member
      rcases member with rfl | rfl <;> rfl
    rw [touched]
    intro name listed
    obtain rfl := List.mem_singleton.mp listed
    simp [other]
  have stands : treesAndOthers.store.resolve ⟨0, "Tree"⟩ = .ok (.of (.tree 0)) := by cbv
  have own (reference : Reference)
      (reaches : treesAndOthers.store.Reaches (.shape (.tree 0)) (.reference reference)) :
      reference.storage = 0 := by
    rcases Store.reaches_tree stands reaches with same | same | same <;> cases same
    rfl
  obtain ⟨names, opened, kept⟩ := registries_do_not_interfere reachable (by cbv) apart
  have still : later.Keeps 0 :=
    .inl (List.mem_map.mpr ⟨_, mem_of_lookup ((names "shapes").mpr named), rfl⟩)
  exact ⟨by cbv, (opened "shapes" named).1, (kept fun _ => still).2 _ own⟩

end Session

end Conform

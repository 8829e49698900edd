import Conform.Proofs.Action
import Conform.Proofs.Rearrangement
/-!
# Building without resolving

A plan for which no reference is resolved on the spot builds the same target in every store, and
makes the same calls on the registry under construction. `Plan.draft?` computes both from the
slots alone, and fails where something would have to be resolved. So definitions with drafts can
be put into a registry in any order, and the root can be built at any point between them: the
construction ends with the same answer.
-/

namespace Conform

open Registry

/-- The session after calls on the registry of a storage. -/
def Session.callAll (session : Session) (id : StorageId) (calls : List Call) : Session :=
  { session with store := session.store.callAll id calls }

/-- Calls can be made in two portions. -/
theorem Session.callAll_append (session : Session) (id : StorageId) (first second : List Call) :
    session.callAll id (first ++ second) = (session.callAll id first).callAll id second := by
  simp only [callAll, Store.callAll, List.foldl_append]

/-- Whatever the store is, the action makes calls on the registry of a storage, returns a value and
does nothing else. -/
def Action.Makes {α : Type} (slots : Names HeldTarget) (id : StorageId) (action : Action α)
    (calls : List Call) (value : α) : Prop :=
  ∀ session : Session, session.slots = slots →
    action.run session = (.ok value, session.callAll id calls)

namespace Action.Makes

variable {α β : Type} {slots : Names HeldTarget} {id : StorageId}

/-- Returning a value. -/
protected theorem pure (value : α) : Makes slots id (pure value) [] value :=
  fun session _ => run_pure value session

/-- One action after another. -/
protected theorem bind {action : Action α} {next : α → Action β} {first second : List Call}
    {middle : α} {value : β} (before : Makes slots id action first middle)
    (after : Makes slots id (next middle) second value) :
    Makes slots id (action >>= next) (first ++ second) value := by
  intro session same
  have rest : (next middle).run (session.callAll id first) = _ := after _ same
  rw [run_bind, before session same, session.callAll_append]
  exact rest

/-- An action after which no further call is made. -/
theorem bind_silent {action : Action α} {next : α → Action β} {calls : List Call} {middle : α}
    {value : β} (before : Makes slots id action calls middle)
    (after : Makes slots id (next middle) [] value) :
    Makes slots id (action >>= next) calls value := by
  rw [← List.append_nil calls]
  exact before.bind after

/-- Making something of what an action returns. -/
theorem map {action : Action α} {calls : List Call} {value : α}
    (makes : Makes slots id action calls value) (make : α → β) :
    Makes slots id (action >>= fun value => pure (make value)) calls (make value) :=
  makes.bind_silent (.pure (make value))

/-- Looking up the registry under construction. -/
theorem storage : Makes slots id (Action.storage (some id) none) [] id :=
  fun session _ => run_pure id session

/-- Reading a slot. -/
theorem slot {name : String} {target : HeldTarget} (found : slots.lookup name = some target) :
    Makes slots id (Action.slot name) [] target := by
  rintro session rfl
  simp only [Action.slot, run_bind, run_get, found, run_pure]
  rfl

/-- Registering a shape. -/
theorem index (key : String) (shape : HeldShape) :
    Makes slots id (modifyStore (·.index id key shape)) [.index key shape] ⟨⟩ :=
  fun session _ => run_modify _ session

/-- Noting a reference. -/
theorem refer (key : String) :
    Makes slots id (modifyStore (·.refer ⟨id, key⟩)) [.refer key] ⟨⟩ :=
  fun session _ => run_modify _ session

end Action.Makes

/-- The shape of a target, where none has to be looked up. -/
def HeldTarget.shape? : HeldTarget → Option HeldShape
  | ⟨.shape shape, keeps, mem_keeps⟩ => some ⟨shape, keeps, mem_keeps⟩
  | ⟨.reference _, _, _⟩ => none

/-- A shape that is there is not resolved. -/
theorem Action.Makes.shapeOf {slots : Names HeldTarget} {id : StorageId} {target : HeldTarget}
    {shape : HeldShape} (here : target.shape? = some shape) :
    Action.Makes slots id (Action.shapeOf target) [] shape := by
  rcases target with ⟨_ | _, keeps, mem_keeps⟩
  · obtain rfl := Option.some.inj here
    exact .pure _
  · cases here

mutual

/-- What a plan builds and the calls it makes, if no reference is resolved on the way. -/
def Plan.draft? (slots : Names HeldTarget) (id : StorageId) :
    Plan → Option (HeldTarget × List Call)
  | .ready leaf => some (.of (.shape leaf.shape), [])
  | .kind expected => some (.of (.shape (.kind expected)), [])
  | .object properties => do
    let (properties, calls) ← PropertyPlan.draftAll? slots id properties
    return ((HeldShape.object properties).target, calls)
  | .array item => do
    let (item, calls) ← Plan.draft? slots id item
    return ((HeldShape.array item).target, calls)
  | .union alternatives => do
    let (alternatives, calls) ← Plan.draftAll? slots id alternatives
    let shape ← HeldShape.union? alternatives
    return (shape.target, calls)
  | .optional inner => do
    let (inner, calls) ← Plan.draft? slots id inner
    return ((HeldShape.optional inner).target, calls)
  | .wrapped inner => do
    let (inner, calls) ← Plan.draft? slots id inner
    let shape ← inner.shape?
    return ((HeldShape.wrapped shape).target, calls)
  | .index none key inner => do
    let (inner, calls) ← Plan.draft? slots id inner
    let shape ← inner.shape?
    return (shape.target, calls ++ [.index key shape])
  | .reference none key => some (.of (.reference ⟨id, key⟩), [.refer key])
  | .index (some _) _ _ => none
  | .reference (some _) _ => none
  | .slot name => do
    let target ← slots.lookup name
    return (target, [])

/-- What plans build from left to right and the calls they make. -/
def Plan.draftAll? (slots : Names HeldTarget) (id : StorageId) :
    List Plan → Option (HeldTargets × List Call)
  | [] => some (.of [], [])
  | plan :: rest => do
    let (target, calls) ← Plan.draft? slots id plan
    let (targets, others) ← Plan.draftAll? slots id rest
    return (.cons target targets, calls ++ others)

/-- What plans of properties build from left to right and the calls they make. -/
def PropertyPlan.draftAll? (slots : Names HeldTarget) (id : StorageId) :
    List PropertyPlan → Option (HeldProperties × List Call)
  | [] => some (.of [], [])
  | ⟨name, accessor, plan⟩ :: rest => do
    let (target, calls) ← Plan.draft? slots id plan
    let (properties, others) ← PropertyPlan.draftAll? slots id rest
    return (.cons name accessor target properties, calls ++ others)

end

section

variable {slots : Names HeldTarget} {id : StorageId}

mutual

/-- Building a plan gives the drafted target and makes the drafted calls. -/
theorem Plan.build_makes : (plan : Plan) → {target : HeldTarget} → {calls : List Call} →
    plan.draft? slots id = some (target, calls) →
      (plan.build (some id)).Makes slots id calls target
  | .ready leaf, _, _, drafted => by
    cases drafted
    exact .pure _
  | .kind expected, _, _, drafted => by
    cases drafted
    exact .pure _
  | .object properties, _, _, drafted => by
    unfold Plan.draft? at drafted
    obtain ⟨⟨_, _⟩, drafts, same⟩ := Option.bind_eq_some_iff.mp drafted
    cases same
    exact (PropertyPlan.buildAll_makes properties drafts).map fun properties =>
      (HeldShape.object properties).target
  | .array item, _, _, drafted => by
    unfold Plan.draft? at drafted
    obtain ⟨⟨_, _⟩, draft, same⟩ := Option.bind_eq_some_iff.mp drafted
    cases same
    exact (Plan.build_makes item draft).map fun item => (HeldShape.array item).target
  | .union alternatives, _, _, drafted => by
    unfold Plan.draft? at drafted
    obtain ⟨⟨_, _⟩, drafts, rest⟩ := Option.bind_eq_some_iff.mp drafted
    obtain ⟨shape, united, same⟩ := Option.bind_eq_some_iff.mp rest
    cases same
    apply (Plan.buildAll_makes alternatives drafts).bind_silent
    rw [united]
    exact .pure _
  | .optional inner, _, _, drafted => by
    unfold Plan.draft? at drafted
    obtain ⟨⟨_, _⟩, draft, same⟩ := Option.bind_eq_some_iff.mp drafted
    cases same
    exact (Plan.build_makes inner draft).map fun inner => (HeldShape.optional inner).target
  | .wrapped inner, _, _, drafted => by
    unfold Plan.draft? at drafted
    obtain ⟨⟨_, _⟩, draft, rest⟩ := Option.bind_eq_some_iff.mp drafted
    obtain ⟨shape, here, same⟩ := Option.bind_eq_some_iff.mp rest
    cases same
    apply (Plan.build_makes inner draft).bind_silent
    exact (Action.Makes.shapeOf here).map fun shape => (HeldShape.wrapped shape).target
  | .index none key inner, _, _, drafted => by
    unfold Plan.draft? at drafted
    obtain ⟨⟨_, _⟩, draft, rest⟩ := Option.bind_eq_some_iff.mp drafted
    obtain ⟨shape, here, same⟩ := Option.bind_eq_some_iff.mp rest
    cases same
    apply (Plan.build_makes inner draft).bind
    apply (Action.Makes.shapeOf here).bind
    exact Action.Makes.storage.bind ((Action.Makes.index key shape).bind_silent (.pure _))
  | .reference none key, _, _, drafted => by
    cases drafted
    exact Action.Makes.storage.bind ((Action.Makes.refer key).bind_silent (.pure _))
  | .slot name, _, _, drafted => by
    unfold Plan.draft? at drafted
    obtain ⟨target, found, same⟩ := Option.bind_eq_some_iff.mp drafted
    cases same
    exact .slot found
  | .index (some _) _ _, _, _, drafted => nomatch drafted
  | .reference (some _) _, _, _, drafted => nomatch drafted

/-- Building plans from left to right gives the drafted targets and makes the drafted calls. -/
theorem Plan.buildAll_makes : (plans : List Plan) → {targets : HeldTargets} → {calls : List Call} →
    Plan.draftAll? slots id plans = some (targets, calls) →
      (Plan.buildAll (some id) plans).Makes slots id calls targets
  | [], _, _, drafted => by
    cases drafted
    exact .pure _
  | plan :: rest, _, _, drafted => by
    unfold Plan.draftAll? at drafted
    obtain ⟨⟨target, _⟩, draft, others⟩ := Option.bind_eq_some_iff.mp drafted
    obtain ⟨⟨_, _⟩, drafts, same⟩ := Option.bind_eq_some_iff.mp others
    cases same
    exact (Plan.build_makes plan draft).bind
      ((Plan.buildAll_makes rest drafts).map (HeldTargets.cons target))

/-- Building properties from left to right gives the drafted ones and makes the drafted calls. -/
theorem PropertyPlan.buildAll_makes : (plans : List PropertyPlan) → {properties : HeldProperties} →
    {calls : List Call} → PropertyPlan.draftAll? slots id plans = some (properties, calls) →
      (PropertyPlan.buildAll (some id) plans).Makes slots id calls properties
  | [], _, _, drafted => by
    cases drafted
    exact .pure _
  | ⟨name, accessor, plan⟩ :: rest, _, _, drafted => by
    unfold PropertyPlan.draftAll? at drafted
    obtain ⟨⟨target, _⟩, draft, others⟩ := Option.bind_eq_some_iff.mp drafted
    obtain ⟨⟨_, _⟩, drafts, same⟩ := Option.bind_eq_some_iff.mp others
    cases same
    exact (Plan.build_makes plan draft).bind
      ((PropertyPlan.buildAll_makes rest drafts).map (HeldProperties.cons name accessor target))

end

/-- The shape that a plan builds and the calls it makes, if no reference is resolved on the way. -/
def Plan.draftShape? (slots : Names HeldTarget) (id : StorageId) (plan : Plan) :
    Option (HeldShape × List Call) := do
  let (target, calls) ← plan.draft? slots id
  let shape ← target.shape?
  return (shape, calls)

/-- The calls that putting a definition into the registry makes. -/
def Plan.draftDefinition? (slots : Names HeldTarget) (id : StorageId) :
    String × Plan → Option (List Call)
  | (key, plan) => do
    let (shape, calls) ← plan.draftShape? slots id
    return calls ++ [.index key shape]

/-- The calls that putting definitions into the registry makes, in order. -/
def Plan.draftDefinitions? (slots : Names HeldTarget) (id : StorageId) :
    List (String × Plan) → Option (List Call)
  | [] => some []
  | definition :: rest => do
    let calls ← Plan.draftDefinition? slots id definition
    let others ← Plan.draftDefinitions? slots id rest
    return calls ++ others

/-- Definitions have drafts one by one. -/
theorem Plan.draftDefinitions?_cons_eq_some_iff {definition : String × Plan}
    {rest : List (String × Plan)} {calls : List Call} :
    Plan.draftDefinitions? slots id (definition :: rest) = some calls ↔
      ∃ first others, Plan.draftDefinition? slots id definition = some first ∧
        Plan.draftDefinitions? slots id rest = some others ∧ first ++ others = calls := by
  simp only [Plan.draftDefinitions?, bind, Option.bind_eq_some_iff, pure, Option.some.injEq]
  constructor
  · rintro ⟨first, draft, others, drafts, same⟩
    exact ⟨first, others, draft, drafts, same⟩
  · rintro ⟨first, others, draft, drafts, same⟩
    exact ⟨first, draft, others, drafts, same⟩

/-- Definitions in two portions have drafts in two portions. -/
theorem Plan.draftDefinitions?_append {before after : List (String × Plan)} {calls : List Call}
    (drafted : Plan.draftDefinitions? slots id (before ++ after) = some calls) :
    ∃ first second, Plan.draftDefinitions? slots id before = some first ∧
      Plan.draftDefinitions? slots id after = some second ∧ first ++ second = calls := by
  induction before generalizing calls with
  | nil => exact ⟨[], calls, rfl, drafted, rfl⟩
  | cons definition rest ih =>
    obtain ⟨own, others, draft, drafts, rfl⟩ :=
      Plan.draftDefinitions?_cons_eq_some_iff.mp drafted
    obtain ⟨first, second, earlier, later, rfl⟩ := ih drafts
    refine ⟨own ++ first, second, ?_, later, List.append_assoc _ _ _⟩
    exact Plan.draftDefinitions?_cons_eq_some_iff.mpr ⟨own, first, draft, earlier, rfl⟩

/-- Rearranged definitions make the same calls, rearranged. -/
theorem Plan.draftDefinitions?_perm {definitions definitions' : List (String × Plan)}
    (perm : definitions.Perm definitions') {calls : List Call}
    (drafted : Plan.draftDefinitions? slots id definitions = some calls) :
    ∃ calls', Plan.draftDefinitions? slots id definitions' = some calls' ∧ calls.Perm calls' := by
  induction perm generalizing calls with
  | nil => exact ⟨calls, drafted, .refl calls⟩
  | cons definition _ ih =>
    obtain ⟨own, others, draft, drafts, rfl⟩ :=
      Plan.draftDefinitions?_cons_eq_some_iff.mp drafted
    obtain ⟨others', drafts', perm⟩ := ih drafts
    exact ⟨own ++ others', Plan.draftDefinitions?_cons_eq_some_iff.mpr ⟨_, _, draft, drafts', rfl⟩,
      perm.append_left own⟩
  | swap first second rest =>
    obtain ⟨_, _, draft, both, rfl⟩ := Plan.draftDefinitions?_cons_eq_some_iff.mp drafted
    obtain ⟨_, others, draft', drafts, rfl⟩ := Plan.draftDefinitions?_cons_eq_some_iff.mp both
    have behind := Plan.draftDefinitions?_cons_eq_some_iff.mpr ⟨_, others, draft, drafts, rfl⟩
    exact ⟨_, Plan.draftDefinitions?_cons_eq_some_iff.mpr ⟨_, _, draft', behind, rfl⟩,
      List.perm_append_comm_assoc _ _ _⟩
  | trans _ _ ih ih' =>
    obtain ⟨middle, drafted, first⟩ := ih drafted
    obtain ⟨last, drafted, second⟩ := ih' drafted
    exact ⟨last, drafted, first.trans second⟩

/-- Building the shape of a plan gives the drafted one and makes the drafted calls. -/
theorem Plan.shape_makes {plan : Plan} {shape : HeldShape} {calls : List Call}
    (drafted : plan.draftShape? slots id = some (shape, calls)) :
    (plan.shape (some id)).Makes slots id calls shape := by
  unfold Plan.draftShape? at drafted
  obtain ⟨⟨_, _⟩, draft, rest⟩ := Option.bind_eq_some_iff.mp drafted
  obtain ⟨_, here, same⟩ := Option.bind_eq_some_iff.mp rest
  cases same
  exact (plan.build_makes draft).bind_silent (.shapeOf here)

/-- Putting definitions into the registry makes the drafted calls. -/
theorem Action.Makes.define {definitions : List (String × Plan)} {calls : List Call}
    (drafted : Plan.draftDefinitions? slots id definitions = some calls) :
    (Action.define id definitions).Makes slots id calls ⟨⟩ := by
  induction definitions generalizing calls with
  | nil =>
    cases drafted
    exact .pure _
  | cons definition rest ih =>
    obtain ⟨_, _, draft, drafts, rfl⟩ := Plan.draftDefinitions?_cons_eq_some_iff.mp drafted
    obtain ⟨⟨shape, _⟩, draftShape, same⟩ := Option.bind_eq_some_iff.mp draft
    cases same
    rw [List.append_assoc]
    apply (Plan.shape_makes draftShape).bind
    exact (Action.Makes.index definition.1 shape).bind (ih drafts)

/-- Put definitions into the registry under construction, and build the root between them. -/
def Action.assemble (id : StorageId) (before : List (String × Plan)) (root : Plan)
    (after : List (String × Plan)) : Action HeldShape := do
  define id before
  let shape ← root.shape (some id)
  define id after
  return shape

/-- Construct a registry, and finish it with the root. -/
def Action.construct (before : List (String × Plan)) (root : Plan)
    (after : List (String × Plan)) : Action (Except RegistryError HeldShape) := do
  let id := (← Action.store).next
  modifyStore Store.create
  let shape ← assemble id before root after
  finish id shape

/-- Definitions and the root make the drafted calls, one after another. -/
theorem Action.Makes.assemble {before after : List (String × Plan)} {root : Plan}
    {first own second : List Call} {shape : HeldShape}
    (earlier : Plan.draftDefinitions? slots id before = some first)
    (draft : root.draftShape? slots id = some (shape, own))
    (later : Plan.draftDefinitions? slots id after = some second) :
    (Action.assemble id before root after).Makes slots id (first ++ (own ++ second)) shape :=
  (define earlier).bind ((Plan.shape_makes draft).bind ((define later).map fun _ => shape))

end

/-- A construction makes calls on a new registry and finishes it. -/
theorem Action.run_construct {session : Session} {before after : List (String × Plan)}
    {root : Plan} {calls : List Call} {shape : HeldShape}
    (makes : (Action.assemble session.store.next before root after).Makes session.slots
      session.store.next calls shape)
    {answer : Except RegistryError HeldShape} {store : Store}
    (finished : (session.store.create.callAll session.store.next calls).finish?
      session.store.next shape = some (answer, store)) :
    (Action.construct before root after).run session =
      (.ok answer, { session with store := store }) := by
  let fresh : Session := { session with store := session.store.create }
  have created : (Action.modifyStore Store.create).run session = (.ok ⟨⟩, fresh) := rfl
  have assembled := makes fresh rfl
  have ended : (Action.finish session.store.next shape).run
      (fresh.callAll session.store.next calls) = (.ok answer, { session with store := store }) := by
    simp only [Action.finish, run_bind, run_store, Session.callAll, fresh, finished]
    rfl
  simp only [Action.construct, run_bind, run_store, created, assembled, ended]

/-- Where everything has drafts and no key is registered twice, definitions may be put into a
registry in any order, with the root built anywhere between them. The registry is finished or
refused with the same answer, and every shape evaluates the same afterwards. -/
theorem Action.construct_of_perm {session : Session} {root : Plan}
    {before after before' after' : List (String × Plan)}
    (perm : (before ++ after).Perm (before' ++ after')) {calls own : List Call} {shape : HeldShape}
    (drafts : Plan.draftDefinitions? session.slots session.store.next (before ++ after) =
      some calls)
    (draft : root.draftShape? session.slots session.store.next = some (shape, own))
    (distinct : (indexedKeys (calls ++ own)).Nodup) :
    ∃ answer later later',
      (construct before root after).run session = (.ok answer, { session with store := later }) ∧
      (construct before' root after').run session =
        (.ok answer, { session with store := later' }) ∧
      ((∃ keys, answer = .error (.unresolvedKeys keys)) ∨
        answer = .ok (.finished session.store.next shape) ∧
          ∀ shape candidate, later'.evaluate shape candidate = later.evaluate shape candidate) := by
  obtain ⟨calls', drafts', rearranged⟩ := Plan.draftDefinitions?_perm perm drafts
  obtain ⟨first, second, earlier, later, rfl⟩ := Plan.draftDefinitions?_append drafts
  obtain ⟨first', second', earlier', later', rfl⟩ := Plan.draftDefinitions?_append drafts'
  have last (first second : List Call) :
      (first ++ second ++ own).Perm (first ++ (own ++ second)) := by
    rw [List.append_assoc]
    exact List.perm_append_comm.append_left first
  have total : (first ++ (own ++ second)).Perm (first' ++ (own ++ second')) :=
    (last first second).symm.trans ((rearranged.append_right own).trans (last first' second'))
  have once := (indexedKeys_perm (last first second)).nodup distinct
  have opened (calls : List Call) := session.store.cell_callAll_create calls
  have elsewhere (other : StorageId) (different : session.store.next ≠ other) :
      (session.store.create.callAll session.store.next (first' ++ (own ++ second'))).cell other =
        (session.store.create.callAll session.store.next
          (first ++ (own ++ second))).cell other := by
    rw [Store.cell_callAll_other different, Store.cell_callAll_other different]
  obtain ⟨answer, store, store', finished, finished', same⟩ :=
    Store.finish?_of_perm total once (opened _) (opened _) elsewhere shape
  exact ⟨answer, store, store', run_construct (.assemble earlier draft later) finished,
    run_construct (.assemble earlier' draft later') finished', same⟩

section

variable {shape : Shape} {store store' : Store}

/-- Stores in which a shape evaluates alike give the same report on it. -/
theorem Action.report_congr (same : ∀ candidate, store'.evaluate shape candidate =
      store.evaluate shape candidate) (session : Session) (query : Query) :
    ∃ result, (report shape query).run { session with store := store } =
        (result, { session with store := store }) ∧
      (report shape query).run { session with store := store' } =
        (result, { session with store := store' }) := by
  simp only [report, run_bind, run_store, same]
  cases store.evaluate shape query.candidate with
  | ok outcome => exact ⟨_, rfl, rfl⟩
  | error cause => exact ⟨_, rfl, rfl⟩

/-- They give the same reports on several candidates. -/
theorem Action.reports_congr (same : ∀ candidate, store'.evaluate shape candidate =
      store.evaluate shape candidate) (session : Session) (queries : List Query) :
    ∃ result, (queries.mapM (report shape)).run { session with store := store } =
        (result, { session with store := store }) ∧
      (queries.mapM (report shape)).run { session with store := store' } =
        (result, { session with store := store' }) := by
  induction queries with
  | nil => exact ⟨_, rfl, rfl⟩
  | cons query rest ih =>
    obtain ⟨result, first, first'⟩ := report_congr same session query
    obtain ⟨results, others, others'⟩ := ih
    simp only [List.mapM_cons, run_bind, first, first']
    cases result with
    | error fault => exact ⟨_, rfl, rfl⟩
    | ok report =>
      simp only [others, others']
      cases results with
      | error fault => exact ⟨_, rfl, rfl⟩
      | ok reports => exact ⟨_, rfl, rfl⟩

end

/-- Filling a slot always succeeds. -/
theorem Action.run_keep (slot : Option String) (target : HeldTarget) (session : Session) :
    ∃ after, (keep slot target).run session = (.ok ⟨⟩, after) := by
  cases slot with
  | none => exact ⟨session, rfl⟩
  | some name => exact ⟨_, rfl⟩

/-- What follows a construction: reports on candidates, if the registry is finished. -/
def Action.conclude (queries : List Query) (slot : Option String) :
    Except RegistryError HeldShape → Action Answer
  | .error error => return .refused error
  | .ok finished => do
    let reports ← queries.mapM (report finished.value)
    keep slot finished.target
    return .reports reports

/-- The command that constructs a registry builds the root last. -/
theorem Command.perform_create_eq (definitions : List (String × Plan)) (root : Plan)
    (queries : List Query) (slot : Option String) :
    (Command.create definitions root queries slot).perform =
      Action.construct definitions root [] >>= Action.conclude queries slot := by
  simp only [Command.perform, Action.construct, Action.assemble, Action.define, bind_assoc,
    pure_bind]
  rfl

/-- The command gives the same answer for definitions in any order, where everything has drafts and
no key is registered twice. -/
theorem Command.create_of_perm {session : Session} {definitions definitions' : List (String × Plan)}
    (perm : definitions.Perm definitions') {root : Plan} {calls own : List Call} {shape : HeldShape}
    (drafts : Plan.draftDefinitions? session.slots session.store.next definitions = some calls)
    (draft : root.draftShape? session.slots session.store.next = some (shape, own))
    (distinct : (indexedKeys (calls ++ own)).Nodup) (queries : List Query)
    (slot : Option String) :
    ((Command.create definitions' root queries slot).perform.run session).1 =
      ((Command.create definitions root queries slot).perform.run session).1 := by
  have permuted : (definitions ++ []).Perm (definitions' ++ []) := perm.append_right []
  rw [← List.append_nil definitions] at drafts
  obtain ⟨answer, later, later', constructed, constructed', same⟩ :=
    Action.construct_of_perm permuted drafts draft distinct
  simp only [Command.perform_create_eq, Action.run_bind, constructed, constructed']
  cases answer with
  | error error => rfl
  | ok finished =>
    rcases same with ⟨_, refused⟩ | ⟨_, alike⟩
    · cases refused
    · obtain ⟨result, reported, reported'⟩ :=
        Action.reports_congr (alike finished.value) session queries
      simp only [Action.conclude, Action.run_bind, reported, reported']
      cases result with
      | error fault => rfl
      | ok reports =>
        obtain ⟨_, kept⟩ := Action.run_keep slot finished.target { session with store := later }
        obtain ⟨_, kept'⟩ := Action.run_keep slot finished.target { session with store := later' }
        simp only [kept, kept']
        rfl

/-- Lists and nodes that refer to each other have drafts. -/
example : (Plan.draftDefinitions? [] 0
    [("List", .union [.kind .null, .reference none "Node"]),
      ("Node", .object [⟨"tail", .ofSteps [.field "tail"], .reference none "List"⟩])]).map
        (fun calls => (indexedKeys calls, referredKeys calls)) =
    some (["List", "Node"], ["Node", "List"]) := by
  rfl

end Conform

import Conform.Proofs.Action
/-!
# What is left alone

Building a plan registers shapes and notes references, and the names of registries in the plan tell
where: `Plan.touched` lists them. A storage for which none of these names stands is spared. It is in
the same state afterwards and has the same name, also if the construction ends with a fault. There
is one rule for every way of putting actions together and one for every elementary action; an
action that only looks at the session spares every storage.
-/

namespace Conform

namespace Names

variable {α : Type} (names : Names α)

/-- A name that is erased stands for nothing. -/
theorem lookup_erase_self (name : String) : (names.erase name).lookup name = none := by
  rw [erase, List.lookup_eq_none_iff]
  intro entry member
  have different := (List.mem_filter.mp member).2
  simp only [decide_eq_true_eq] at different
  simp [Ne.symm different]

/-- Other names stand for what they stood for. -/
theorem lookup_erase_of_ne {name other : String} (different : other ≠ name) :
    (names.erase name).lookup other = names.lookup other := by
  induction names with
  | nil => rfl
  | cons entry rest ih =>
    rw [erase, List.filter_cons]
    by_cases erased : entry.1 = name
    · have passed : (other == entry.1) = false := by simp [erased, different]
      rw [List.lookup_cons, passed]
      simpa [erased, erase] using ih
    · rw [if_pos (by simpa using erased), List.lookup_cons, List.lookup_cons]
      cases other == entry.1 with
      | true => rfl
      | false => exact ih

end Names

mutual

/-- The names of the registries in which building a plan registers shapes or notes references. -/
def Plan.touched : Plan → List String
  | .ready _ => []
  | .kind _ => []
  | .object properties => PropertyPlan.allTouched properties
  | .array item => item.touched
  | .union alternatives => Plan.allTouched alternatives
  | .optional inner => inner.touched
  | .wrapped inner => inner.touched
  | .index registry _ inner => inner.touched ++ registry.toList
  | .reference registry _ => registry.toList
  | .slot _ => []

/-- The names of registries in plans. -/
def Plan.allTouched : List Plan → List String
  | [] => []
  | plan :: rest => plan.touched ++ Plan.allTouched rest

/-- The names of registries in properties. -/
def PropertyPlan.allTouched : List PropertyPlan → List String
  | [] => []
  | ⟨_, _, plan⟩ :: rest => plan.touched ++ PropertyPlan.allTouched rest

end

namespace Session

/-- Nothing has happened to a storage, but that it was let go of maybe. -/
structure Spares (id : StorageId) (earlier later : Session) : Prop where
  /-- Its state is the same, unless it was released. -/
  cell : later.store.cell id = earlier.store.cell id ∨ later.store.cell id = .released
  /-- It has the same name, if any. -/
  names : ∀ name, later.registries.lookup name = some id ↔
    earlier.registries.lookup name = some id

/-- None of the names stands for a storage. -/
def Apart (session : Session) (id : StorageId) (names : List String) : Prop :=
  ∀ name ∈ names, session.registries.lookup name ≠ some id

variable {id : StorageId} {session earlier middle later : Session}

/-- Nothing has to happen. -/
theorem Spares.refl (id : StorageId) (session : Session) : session.Spares id session :=
  ⟨.inl rfl, fun _ => .rfl⟩

/-- A storage may be spared twice. -/
theorem Spares.trans (first : earlier.Spares id middle) (second : middle.Spares id later) :
    earlier.Spares id later := by
  constructor
  · rcases second.cell with same | released
    · rw [same]
      exact first.cell
    · exact .inr released
  · exact fun name => (second.names name).trans (first.names name)

/-- The first names are apart if all are. -/
theorem Apart.left {first second : List String} (apart : session.Apart id (first ++ second)) :
    session.Apart id first :=
  fun name member => apart name (List.mem_append_left _ member)

/-- The last names are apart if all are. -/
theorem Apart.right {first second : List String} (apart : session.Apart id (first ++ second)) :
    session.Apart id second :=
  fun name member => apart name (List.mem_append_right _ member)

/-- Names that do not stand for a storage do not come to stand for it. -/
theorem Apart.spared {names : List String} (apart : earlier.Apart id names)
    (spares : earlier.Spares id later) : later.Apart id names :=
  fun name member => (apart name member).imp (spares.names name).mp

/-- Erasing a name that does not stand for a storage spares the storage. -/
theorem spares_erase {name : String} (apart : session.Apart id [name]) :
    session.Spares id { session with registries := session.registries.erase name } := by
  refine ⟨.inl rfl, fun other => ?_⟩
  by_cases same : other = name
  · subst same
    have unnamed := apart other List.mem_cons_self
    simp only [Names.lookup_erase_self, unnamed, reduceCtorEq]
  · rw [Names.lookup_erase_of_ne _ same]

/-- Naming another storage spares a storage for which the name does not stand. -/
theorem spares_insert {name : String} (apart : session.Apart id [name]) {other : StorageId}
    (different : other ≠ id) :
    session.Spares id { session with registries := session.registries.insert name other } := by
  refine ⟨.inl rfl, fun asked => ?_⟩
  simp only [Names.insert, List.lookup_cons]
  by_cases same : asked = name
  · subst same
    have unnamed := apart asked List.mem_cons_self
    simp [unnamed, different]
  · simp only [beq_false_of_ne same, Names.lookup_erase_of_ne _ same]

/-- Letting go of what nothing keeps spares every storage. -/
theorem spares_settle (id : StorageId) (session : Session) : session.Spares id session.settle :=
  ⟨session.store.cell_releaseRounds_eq_or session.holdings _ id, fun _ => .rfl⟩

end Session

/-- The action leaves the session as it is. -/
def Action.Reads {α : Type} (action : Action α) : Prop :=
  ∀ session, (action.run session).2 = session

namespace Action.Reads

variable {α β : Type}

/-- Returning a value. -/
protected theorem pure (value : α) : (pure value : Action α).Reads := fun _ => rfl

/-- Ending with a fault. -/
protected theorem throw (fault : Fault) : (throw fault : Action α).Reads := fun _ => rfl

/-- One action after another. -/
protected theorem bind {action : Action α} {next : α → Action β} (first : action.Reads)
    (second : ∀ value, (next value).Reads) : (action >>= next).Reads := by
  intro session
  have same := first session
  rw [run_bind]
  rcases ended : action.run session with ⟨_ | value, after⟩
  · rwa [ended] at same
  · rw [ended] at same
    exact (second value after).trans same

/-- Reading the session. -/
protected theorem get : (get : Action Session).Reads := fun _ => rfl

/-- Reading the store. -/
protected theorem store : Action.store.Reads := fun _ => rfl

/-- Taking over the result of a check. -/
theorem ofChecked (checked : Checked α) : (Action.ofChecked checked).Reads := by
  cases checked <;> exact fun _ => rfl

/-- Looking up a registry. -/
theorem storage (scope : Option StorageId) (name : Option String) :
    (Action.storage scope name).Reads := by
  cases name with
  | none => cases scope <;> exact fun _ => rfl
  | some name =>
    apply Reads.bind .get
    intro session
    cases session.registries.lookup name <;> exact fun _ => rfl

/-- Looking at a registry. -/
theorem registry (name : String) : (Action.registry name).Reads := by
  apply Reads.bind (.storage none (some name))
  intro id
  apply Reads.bind .store
  intro store
  cases store.opened? id <;> exact fun _ => rfl

/-- Reading a slot. -/
theorem slot (name : String) : (Action.slot name).Reads := by
  apply Reads.bind .get
  intro session
  cases session.slots.lookup name <;> exact fun _ => rfl

/-- Taking a shape. -/
theorem shapeOf : (target : HeldTarget) → (Action.shapeOf target).Reads
  | ⟨.shape _, _, _⟩ => .pure _
  | ⟨.reference reference, _, _⟩ => by
    apply Reads.bind .store
    intro store
    cases store.resolve reference <;> exact fun _ => rfl

/-- Answering a query. -/
theorem report (shape : Shape) (query : Query) : (Action.report shape query).Reads := by
  apply Reads.bind .store
  intro store
  exact .bind (.ofChecked _) fun _ => .pure _

/-- Answering queries. -/
theorem reports (shape : Shape) (queries : List Query) :
    (queries.mapM (Action.report shape)).Reads := by
  induction queries with
  | nil => exact .pure []
  | cons query rest ih =>
    rw [List.mapM_cons]
    exact .bind (.report shape query) fun _ => .bind ih fun _ => .pure _

end Action.Reads

/-- The action spares a storage, and returns nothing but values with a property. -/
structure Action.Spares {α : Type} (id : StorageId) (session : Session) (action : Action α)
    (post : α → Prop) : Prop where
  /-- The storage is spared. -/
  spares : session.Spares id (action.run session).2
  /-- What is returned has the property. -/
  returns : ∀ value, (action.run session).1 = .ok value → post value

namespace Action.Spares

variable {α β : Type} {id : StorageId} {session : Session}

/-- A run that is known. -/
theorem of_run {action : Action α} {result : Except Fault α} {after : Session} {post : α → Prop}
    (run : action.run session = (result, after)) (spares : session.Spares id after)
    (returns : ∀ value, result = .ok value → post value) : Spares id session action post := by
  constructor
  · rw [run]
    exact spares
  · rw [run]
    exact returns

/-- An action that leaves the session as it is. -/
theorem of_reads {action : Action α} (reads : action.Reads) :
    Spares id session action fun _ => True := by
  constructor
  · rw [reads session]
    exact .refl id session
  · exact fun _ _ => trivial

/-- Returning a value. -/
protected theorem pure (value : α) : Spares id session (pure value) fun _ => True :=
  of_reads (.pure value)

/-- One action after another. -/
protected theorem bind {action : Action α} {next : α → Action β} {middle : α → Prop}
    {post : β → Prop} (first : Spares id session action middle)
    (second : ∀ between value, session.Spares id between → middle value →
      Spares id between (next value) post) : Spares id session (action >>= next) post := by
  have run := run_bind action next session
  rcases ended : action.run session with ⟨result, between⟩
  obtain ⟨spares, returns⟩ := first
  rw [ended] at run spares returns
  cases result with
  | error fault => exact of_run run spares nofun
  | ok value =>
    obtain ⟨spares', returns'⟩ := second between value spares (returns value rfl)
    exact of_run run (spares.trans spares') returns'

/-- One action after another one that returns a value that is known. -/
theorem bind_of_run {action : Action α} {next : α → Action β} {value : α} {post : β → Prop}
    (run : action.run session = (.ok value, session)) (rest : Spares id session (next value) post) :
    Spares id session (action >>= next) post := by
  have run' := run_bind action next session
  rw [run] at run'
  exact of_run run' rest.spares rest.returns

/-- Making something of what an action returns. -/
theorem answer {action : Action α} {post : α → Prop} (spares : Spares id session action post)
    (make : α → β) : Spares id session (action >>= fun value => pure (make value)) fun _ => True :=
  .bind spares fun _ _ _ _ => .pure _

/-- Changing the session. -/
protected theorem modify {change : Session → Session}
    (spares : session.Spares id (change session)) :
    Spares id session (modify change) fun _ => True :=
  ⟨spares, fun _ _ => trivial⟩

/-- Changing other storages. -/
theorem modifyStore {change : Store → Store}
    (same : (change session.store).cell id = session.store.cell id) :
    Spares id session (Action.modifyStore change) fun _ => True :=
  .modify ⟨.inl same, fun _ => .rfl⟩

/-- Creating a storage. -/
theorem create (created : id < session.store.cells.length) :
    Spares id session (Action.modifyStore Store.create) fun _ => True :=
  modifyStore (session.store.cell_create_of_ne (Nat.ne_of_lt created))

/-- Registering a shape elsewhere. -/
theorem index {other : StorageId} (different : other ≠ id) (key : String) (shape : HeldShape) :
    Spares id session (Action.modifyStore (·.index other key shape)) fun _ => True :=
  modifyStore (session.store.cell_modifyRegistry_of_ne different _)

/-- Noting a reference elsewhere. -/
theorem refer {reference : Reference} (different : reference.storage ≠ id) :
    Spares id session (Action.modifyStore (·.refer reference)) fun _ => True :=
  modifyStore (session.store.cell_modifyRegistry_of_ne different _)

/-- Looking up another registry. -/
theorem storage {scope : Option StorageId} (elsewhere : scope ≠ some id)
    {name : Option String} (apart : session.Apart id name.toList) :
    Spares id session (Action.storage scope name) (· ≠ id) := by
  refine ⟨(of_reads (.storage scope name)).spares, fun other returned => ?_⟩
  match name, scope with
  | some name, _ =>
    simp only [Action.storage, run_bind, run_get] at returned
    cases named : session.registries.lookup name with
    | none => simp [named, run_throw] at returned
    | some found =>
      simp only [named, run_pure, Except.ok.injEq] at returned
      rintro rfl
      exact apart name List.mem_cons_self (named.trans (congrArg some returned))
  | none, some found =>
    obtain rfl := Except.ok.inj returned
    exact fun same => elsewhere (congrArg some same)
  | none, none => cases returned

/-- Filling a slot, if one is named. -/
theorem keep (slot : Option String) (target : HeldTarget) :
    Spares id session (Action.keep slot target) fun _ => True := by
  cases slot with
  | none => exact .pure ()
  | some name => exact .modify ⟨.inl rfl, fun _ => .rfl⟩

/-- Finishing another registry. -/
theorem finish {other : StorageId} (different : other ≠ id) (root : HeldShape) :
    Spares id session (Action.finish other root) fun _ => True := by
  apply bind_of_run (run_store session)
  cases finished : session.store.finish? other root with
  | none => exact of_reads (.throw _)
  | some result =>
    obtain ⟨answer, store⟩ := result
    have same : store.cell id = session.store.cell id := by
      obtain ⟨registry, _, ⟨_, _, rfl⟩ | ⟨_, _, _, rfl⟩⟩ := Store.finish?_eq_some_iff.mp finished
      · exact Store.cell_setCell_other _ _ _ _ different
      · exact Store.cell_setCell_other _ _ _ _ different
    have changed : session.Spares id { session with store := store } :=
      ⟨.inl same, fun _ => .rfl⟩
    exact Spares.bind (.modify changed) fun _ _ _ _ => .pure answer

end Action.Spares

mutual

/-- Building a plan spares every storage for which no name in it stands. -/
theorem Plan.build_spares {id : StorageId} {scope : Option StorageId}
    (elsewhere : scope ≠ some id) :
    (plan : Plan) → {session : Session} → session.Apart id plan.touched →
      Action.Spares id session (plan.build scope) fun _ => True
  | .ready leaf, session, _ => .pure _
  | .kind expected, session, _ => .pure _
  | .object properties, session, apart => by
    unfold Plan.build
    exact (PropertyPlan.buildAll_spares elsewhere properties apart).answer _
  | .array item, session, apart => by
    unfold Plan.build
    exact (Plan.build_spares elsewhere item apart).answer _
  | .union alternatives, session, apart => by
    unfold Plan.build
    apply Action.Spares.bind (Plan.buildAll_spares elsewhere alternatives apart)
    intro between targets _ _
    cases HeldShape.union? targets with
    | none => exact .of_reads (.throw _)
    | some shape => exact .pure _
  | .optional inner, session, apart => by
    unfold Plan.build
    exact (Plan.build_spares elsewhere inner apart).answer _
  | .wrapped inner, session, apart => by
    unfold Plan.build
    apply Action.Spares.bind (Plan.build_spares elsewhere inner apart)
    intro between target _ _
    exact (Action.Spares.of_reads (.shapeOf target)).answer _
  | .index registry key inner, session, apart => by
    unfold Plan.build
    apply Action.Spares.bind (Plan.build_spares elsewhere inner (Session.Apart.left apart))
    intro between target spares _
    apply Action.Spares.bind (.of_reads (.shapeOf target))
    intro third shape further _
    have still := ((Session.Apart.right apart).spared spares).spared further
    apply Action.Spares.bind (.storage elsewhere still)
    intro fourth other _ different
    exact (Action.Spares.index different key shape).answer _
  | .reference registry key, session, apart => by
    unfold Plan.build
    apply Action.Spares.bind (.storage elsewhere apart)
    intro between other _ different
    exact (Action.Spares.refer different).answer _
  | .slot name, session, _ => .of_reads (.slot name)

/-- Building plans one after another spares every storage for which no name in them stands. -/
theorem Plan.buildAll_spares {id : StorageId} {scope : Option StorageId}
    (elsewhere : scope ≠ some id) :
    (plans : List Plan) → {session : Session} → session.Apart id (Plan.allTouched plans) →
      Action.Spares id session (Plan.buildAll scope plans) fun _ => True
  | [], session, _ => .pure _
  | plan :: rest, session, apart => by
    unfold Plan.buildAll
    apply Action.Spares.bind (Plan.build_spares elsewhere plan (Session.Apart.left apart))
    intro between target spares _
    exact (Plan.buildAll_spares elsewhere rest ((Session.Apart.right apart).spared spares)).answer _

/-- Building properties one after another spares every storage for which no name in them stands. -/
theorem PropertyPlan.buildAll_spares {id : StorageId} {scope : Option StorageId}
    (elsewhere : scope ≠ some id) :
    (plans : List PropertyPlan) → {session : Session} →
      session.Apart id (PropertyPlan.allTouched plans) →
      Action.Spares id session (PropertyPlan.buildAll scope plans) fun _ => True
  | [], session, _ => .pure _
  | ⟨name, accessor, plan⟩ :: rest, session, apart => by
    unfold PropertyPlan.buildAll
    apply Action.Spares.bind (Plan.build_spares elsewhere plan (Session.Apart.left apart))
    intro between target spares _
    have still := (Session.Apart.right apart).spared spares
    exact (PropertyPlan.buildAll_spares elsewhere rest still).answer _

end

variable {id : StorageId} {session : Session}

/-- Building a shape spares every storage for which no name in its plan stands. -/
theorem Plan.shape_spares {scope : Option StorageId}
    (elsewhere : scope ≠ some id) (plan : Plan)
    (apart : session.Apart id plan.touched) :
    Action.Spares id session (plan.shape scope) fun _ => True :=
  .bind (plan.build_spares elsewhere apart) fun _ target _ _ => .of_reads (.shapeOf target)

/-- Inspecting a plan spares every storage for which no name in it stands. -/
theorem Plan.inspect_spares (plan : Plan) (apart : session.Apart id plan.touched) :
    Action.Spares id session plan.inspect fun _ => True := by
  have elsewhere : none ≠ some id := nofun
  unfold Plan.inspect
  split
  · exact .pure _
  · exact (PropertyPlan.buildAll_spares elsewhere _ apart).answer _
  · rename_i item
    exact (item.build_spares elsewhere apart).answer _
  · exact .of_reads (.throw _)
  · exact (Plan.buildAll_spares elsewhere _ apart).answer _
  · exact (Plan.build_spares elsewhere _ apart).answer _

end Conform

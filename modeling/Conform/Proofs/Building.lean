import Conform.Proofs.Action
/-!
# Building plans

Whatever a plan builds is admitted, and building it only grows the session: references are noted
before they are used, and what is registered has been built before. This holds at every point of
a construction, also when it ends with a fault halfway.
-/

namespace Conform

/-- The registry under construction, if there is one, is open. -/
def Session.Constructs (session : Session) (scope : Option StorageId) : Prop :=
  ∀ id, scope = some id → ∃ registry, session.store.cell id = .opened registry

/-- The registry under construction stays open. -/
theorem Session.Constructs.grows {earlier later : Session} {scope : Option StorageId}
    (constructs : earlier.Constructs scope) (grows : earlier.Grows later) :
    later.Constructs scope := by
  intro id same
  obtain ⟨registry, opened⟩ := constructs id same
  exact grows.store.opened opened

/-- A name stands for an open registry. -/
theorem Session.Sound.opened_of_lookup {session : Session} (sound : session.Sound) {name : String}
    {id : StorageId} (named : session.registries.lookup name = some id) :
    ∃ registry, session.store.cell id = .opened registry :=
  sound.registries _ (mem_of_lookup named)

/-- What is looked up by a name, or is under construction, is an open registry. -/
theorem Action.Keeps.storage {session : Session} (sound : session.Sound)
    {scope : Option StorageId} (constructs : session.Constructs scope) (name : Option String) :
    Action.Keeps Session.Grows session (Action.storage scope name) fun after id =>
      ∃ registry, after.store.cell id = .opened registry := by
  match name, scope with
  | some name, scope =>
    have found := Keeps.storage_named sound scope name
    exact ⟨found.sound, found.related, fun id same =>
      found.sound.opened_of_lookup (found.returns id same)⟩
  | none, some id => exact .pure sound (.refl session) (constructs id rfl)
  | none, none => exact .throw sound (.refl session)

namespace Store.Admits

variable {store : Store}

/-- An object is admitted if its properties are. -/
theorem object {properties : List Property}
    (each : ∀ property ∈ properties, store.Admits property.target) :
    store.Admits (.shape (.object properties)) := by
  apply Store.Admits.shape
  · intro part has
    cases has with
    | property member => exact each _ member
  · nofun

/-- An array is admitted if its item is. -/
theorem array {item : Target} (admits : store.Admits item) :
    store.Admits (.shape (.array item)) := by
  apply Store.Admits.shape
  · intro part has
    cases has with
    | item => exact admits
  · nofun

/-- A union is admitted if its alternatives are. -/
theorem union {first : Target} {rest : List Target}
    (each : ∀ target ∈ first :: rest, store.Admits target) :
    store.Admits (.shape (.union first rest)) := by
  apply Store.Admits.shape
  · intro part has
    cases has with
    | alternative member => exact each _ member
  · nofun

/-- A shape around another one is admitted if that one is. -/
theorem wrapped {inner : Shape} (admits : store.Admits (.shape inner)) :
    store.Admits (.shape (.wrapped inner)) := by
  apply Store.Admits.shape
  · intro part has
    cases has with
    | inner => exact admits
  · nofun

/-- The root of a finished registry is admitted if its storage is finished. -/
theorem finished {id : StorageId} {root : Shape} {entries : Entries}
    (admits : store.Admits (.shape root)) (state : store.cell id = .finished entries) :
    store.Admits (.shape (.finished id root)) := by
  apply Store.Admits.shape
  · intro part has
    cases has with
    | root => exact admits
  · intro _ _ same
    cases same
    exact ⟨entries, state⟩

/-- A shape without parts is admitted. -/
theorem leaf (leaf : Leaf) : store.Admits (.shape leaf.shape) := by
  cases leaf <;> exact .shape nofun nofun

/-- What may be absent or `null` is admitted if the target is. -/
theorem optional {target : Target} (admits : store.Admits target) :
    store.Admits (.shape (.optional target)) := by
  apply Store.Admits.union
  intro other member
  simp only [List.mem_cons, List.not_mem_nil, or_false] at member
  rcases member with rfl | rfl | rfl
  · exact leaf (.literal .undefined)
  · exact leaf (.literal (.json .null))
  · exact admits

end Store.Admits

mutual

/-- Building a plan grows the session, and what is built is admitted. -/
theorem Plan.build_keeps (scope : Option StorageId) :
    (plan : Plan) → {session : Session} → session.Sound → session.Constructs scope →
      Action.Keeps Session.Grows session (plan.build scope) fun after target =>
        after.store.Admits target.value
  | .ready leaf, session, sound, _ => .pure sound (.refl session) (.leaf leaf)
  | .kind expected, session, sound, _ => .pure sound (.refl session) (.leaf (.kind expected))
  | .object properties, session, sound, constructs => by
    unfold Plan.build
    apply Action.Keeps.bind (PropertyPlan.buildAll_keeps scope properties sound constructs)
    intro between properties sound _ each
    exact .pure sound (.refl between) (.object each)
  | .array item, session, sound, constructs => by
    unfold Plan.build
    apply Action.Keeps.bind (Plan.build_keeps scope item sound constructs)
    intro between item sound _ admits
    exact .pure sound (.refl between) admits.array
  | .union alternatives, session, sound, constructs => by
    unfold Plan.build
    apply Action.Keeps.bind (Plan.buildAll_keeps scope alternatives sound constructs)
    rintro between ⟨_ | ⟨first, rest⟩, keeps, mem_keeps⟩ sound _ each
    · exact .throw sound (.refl between)
    · exact .pure sound (.refl between) (.union each)
  | .optional inner, session, sound, constructs => by
    unfold Plan.build
    apply Action.Keeps.bind (Plan.build_keeps scope inner sound constructs)
    intro between inner sound _ admits
    exact .pure sound (.refl between) admits.optional
  | .wrapped inner, session, sound, constructs => by
    unfold Plan.build
    apply Action.Keeps.bind (Plan.build_keeps scope inner sound constructs)
    intro between inner sound _ admits
    apply Action.Keeps.bind (.shapeOf sound admits)
    intro last shape sound _ admits
    exact .pure sound (.refl last) admits.wrapped
  | .index registry key inner, session, sound, constructs => by
    unfold Plan.build
    apply Action.Keeps.bind (Plan.build_keeps scope inner sound constructs)
    intro between inner sound grows admits
    apply Action.Keeps.bind (.shapeOf sound admits)
    intro third shape sound further admits
    have still := (constructs.grows grows).grows further
    apply Action.Keeps.bind (.storage sound still registry)
    intro fourth id sound grows opened
    apply Action.Keeps.bind (.index sound key opened (admits.retains grows.store.retains))
    intro last _ sound _ admits
    exact .pure sound (.refl last) admits
  | .reference registry key, session, sound, constructs => by
    unfold Plan.build
    apply Action.Keeps.bind (.storage sound constructs registry)
    intro between id sound _ opened
    apply Action.Keeps.bind (.refer sound ⟨id, key⟩ opened)
    intro last _ sound _ admits
    exact .pure sound (.refl last) admits
  | .slot name, session, sound, _ => .slot sound name

/-- Building plans one after another grows the session, and everything built is admitted. -/
theorem Plan.buildAll_keeps (scope : Option StorageId) :
    (plans : List Plan) → {session : Session} → session.Sound → session.Constructs scope →
      Action.Keeps Session.Grows session (Plan.buildAll scope plans) fun after targets =>
        ∀ target ∈ targets.value, after.store.Admits target
  | [], session, sound, _ => .pure sound (.refl session) nofun
  | plan :: rest, session, sound, constructs => by
    unfold Plan.buildAll
    apply Action.Keeps.bind (Plan.build_keeps scope plan sound constructs)
    intro between target sound grows admits
    apply Action.Keeps.bind (Plan.buildAll_keeps scope rest sound (constructs.grows grows))
    intro last targets sound grows each
    have first := admits.retains grows.store.retains
    exact .pure sound (.refl last) (List.forall_mem_cons.mpr ⟨first, each⟩)

/-- Building properties one after another grows the session, and everything built is admitted. -/
theorem PropertyPlan.buildAll_keeps (scope : Option StorageId) :
    (plans : List PropertyPlan) → {session : Session} → session.Sound →
      session.Constructs scope →
      Action.Keeps Session.Grows session (PropertyPlan.buildAll scope plans)
        fun after properties => ∀ property ∈ properties.value, after.store.Admits property.target
  | [], session, sound, _ => .pure sound (.refl session) nofun
  | ⟨name, accessor, plan⟩ :: rest, session, sound, constructs => by
    unfold PropertyPlan.buildAll
    apply Action.Keeps.bind (Plan.build_keeps scope plan sound constructs)
    intro between target sound grows admits
    apply Action.Keeps.bind (PropertyPlan.buildAll_keeps scope rest sound (constructs.grows grows))
    intro last properties sound grows each
    have first := admits.retains grows.store.retains
    exact .pure sound (.refl last) (List.forall_mem_cons.mpr ⟨first, each⟩)

end

/-- Building a shape grows the session, and the shape is admitted. -/
theorem Plan.shape_keeps (scope : Option StorageId) (plan : Plan) {session : Session}
    (sound : session.Sound) (constructs : session.Constructs scope) :
    Action.Keeps Session.Grows session (plan.shape scope) fun after shape =>
      after.store.Admits (.shape shape.value) :=
  .bind (plan.build_keeps scope sound constructs) fun _ _ sound _ admits => .shapeOf sound admits

/-- Inspecting a plan grows the session. -/
theorem Plan.inspect_keeps (plan : Plan) {session : Session} (sound : session.Sound) :
    Action.Keeps Session.Grows session plan.inspect fun _ _ => True := by
  have constructs : session.Constructs none := nofun
  unfold Plan.inspect
  split
  · exact .pure sound (.refl session) trivial
  · exact (PropertyPlan.buildAll_keeps none _ sound constructs).answer .refl _
  · exact (Plan.build_keeps none _ sound constructs).answer .refl _
  · exact .throw sound (.refl session)
  · exact (Plan.buildAll_keeps none _ sound constructs).answer .refl _
  · exact (Plan.build_keeps none _ sound constructs).answer .refl _

end Conform

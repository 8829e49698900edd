import Conform.Proofs.Derivation
/-!
# What an evaluation demands

An evaluation demands references in an order that depends on the candidate. An object demands what
its properties ask for, one property after the other, an absent one included; an array demands its
item once, unless it is empty, and then what its elements ask for; a union demands its alternatives
up to the first one that is valid. Here this order is told by tasks that are worked through depth
first, without any result of the evaluation but the validity of alternatives, and without an end
where a reference cannot be resolved. An evaluation that ends is determined by it: the first
demanded reference that cannot be resolved interrupts it, and nothing else does.
-/

namespace Conform

/-- The elements of a list up to the first one with a property, and that one. -/
def throughFirst {α : Type} (property : α → Bool) : List α → List α
  | [] => []
  | first :: rest => if property first then [first] else first :: throughFirst property rest

/-- A candidate that is to be checked against a target. -/
abbrev Task := Target × Option Json

namespace Store

/-- Whether a candidate is valid under a target. -/
def takes (store : Store) (candidate : Option Json) (target : Target) : Bool :=
  match target.check (store.follow (store.bound candidate)) candidate with
  | .ok outcome => outcome.isValid
  | .error _ => false

/-- To check candidates against one target: a reference is demanded once for all of them, and the
shape that it stands for, if there is one, is what each of them is checked against. -/
def enter (store : Store) (candidates : List (Option Json)) : Target → List Reference × List Task
  | .shape shape => ([], candidates.map fun candidate => (.shape shape, candidate))
  | .reference reference =>
    match store.resolve reference with
    | .ok shape => ([reference], candidates.map fun candidate => (.shape shape.value, candidate))
    | .error _ => ([reference], [])

/-- How a task begins: with the references that are demanded right away, and the tasks that come
after them. -/
def begin (store : Store) : Task → List Reference × List Task
  | (.reference reference, candidate) => store.enter [candidate] (.reference reference)
  | (.shape (.object properties), some (.object members)) =>
    ([], properties.map fun property =>
      (property.target, property.accessor.select? (.object members)))
  | (.shape (.array _), some (.array [])) => ([], [])
  | (.shape (.array item), some (.array elements)) => store.enter (elements.map some) item
  | (.shape (.union first rest), candidate) =>
    ([], (throughFirst (store.takes candidate) (first :: rest)).map fun target =>
      (target, candidate))
  | (.shape (.wrapped inner), candidate) => ([], [(.shape inner, candidate)])
  | (.shape (.finished _ root), candidate) => ([], [(.shape root, candidate)])
  | _ => ([], [])

/-- Tasks are worked through for a while: these references were demanded, in this order, and these
tasks are left. What comes after the beginning of a task comes before the other tasks. -/
inductive Demands (store : Store) : List Task → List Reference → List Task → Prop
  /-- No task was begun. -/
  | rest {tasks : List Task} : Demands store tasks [] tasks
  /-- The first task was begun. -/
  | next {task : Task} {others left : List Task} {demanded : List Reference}
      (onward : Demands store ((store.begin task).2 ++ others) demanded left) :
      Demands store (task :: others) ((store.begin task).1 ++ demanded) left

/-- An evaluation of a candidate demands a reference. -/
def Demanded (store : Store) (shape : Shape) (candidate : Option Json) (reference : Reference) :
    Prop :=
  ∃ demanded left, store.Demands [(.shape shape, candidate)] demanded left ∧ reference ∈ demanded

namespace Demands

variable {store : Store} {tasks middle left others : List Task}
  {demanded demanded' : List Reference}

/-- Work goes on where it was left. -/
theorem trans (first : store.Demands tasks demanded middle)
    (second : store.Demands middle demanded' left) :
    store.Demands tasks (demanded ++ demanded') left := by
  induction first with
  | rest => exact second
  | next _ ih =>
    rw [List.append_assoc]
    exact .next (ih second)

/-- Tasks that come later wait. -/
theorem before (first : store.Demands tasks demanded left) (others : List Task) :
    store.Demands (tasks ++ others) demanded (left ++ others) := by
  induction first with
  | rest => exact .rest
  | next _ ih =>
    rw [List.append_assoc] at ih
    exact .next ih

/-- Tasks are worked through one list after the other. -/
theorem append (first : store.Demands tasks demanded [])
    (second : store.Demands others demanded' left) :
    store.Demands (tasks ++ others) (demanded ++ demanded') left :=
  (first.before others).trans second

/-- The order is determined: of two stretches of work on the same tasks, one is the beginning of
the other. -/
theorem prefix_or {left' : List Task} (first : store.Demands tasks demanded left)
    (second : store.Demands tasks demanded' left') :
    demanded <+: demanded' ∨ demanded' <+: demanded := by
  induction first generalizing demanded' left' with
  | rest => exact .inl List.nil_prefix
  | next _ ih =>
    cases second with
    | rest => exact .inr List.nil_prefix
    | next onward =>
      rw [List.prefix_append_right_inj, List.prefix_append_right_inj]
      exact ih onward

/-- Where no task is left, all that is ever demanded has been. -/
theorem prefix_of_done {left' : List Task} (done : store.Demands tasks demanded [])
    (other : store.Demands tasks demanded' left') : demanded' <+: demanded := by
  generalize none : ([] : List Task) = left at done
  induction done generalizing demanded' left' with
  | rest =>
    subst none
    cases other
    exact List.nil_prefix
  | next _ ih =>
    cases other with
    | rest => exact List.nil_prefix
    | next onward =>
      rw [List.prefix_append_right_inj]
      exact ih onward none

end Demands

/-- Another store has the same shape as a store for each of these references, or the same reason
why there is none. -/
def ResolvesAlike (store other : Store) (references : List Reference) : Prop :=
  ∀ reference ∈ references,
    (other.resolve reference).map Held.value = (store.resolve reference).map Held.value

/-- Every one of these references stands for a shape. -/
def ResolvesAll (store : Store) (references : List Reference) : Prop :=
  ∀ reference ∈ references, ∃ shape, store.resolve reference = .ok shape

/-- What the same check ends with in two stores is determined by its tasks in the first one: by the
first reference that cannot be resolved, or by all of them. An exhausted bound determines
nothing. -/
inductive Determines (store other : Store) (tasks : List Task) {α : Type} :
    Checked α → Checked α → Prop
  /-- Every demanded reference stands for a shape. -/
  | returned {demanded : List Reference} {value : α} {result : Checked α}
      (run : store.Demands tasks demanded []) (resolved : store.ResolvesAll demanded)
      (same : store.ResolvesAlike other demanded → result = .ok value) :
      Determines store other tasks (.ok value) result
  /-- A demanded reference is the first one that cannot be resolved. -/
  | unresolved {earlier : List Reference} {reference : Reference} {left : List Task}
      {error : RegistryError} {result : Checked α}
      (run : store.Demands tasks (earlier ++ [reference]) left)
      (resolved : store.ResolvesAll earlier) (fails : store.resolve reference = .error error)
      (same : store.ResolvesAlike other (earlier ++ [reference]) →
        result = .error (.unresolved error)) :
      Determines store other tasks (.error (.unresolved error)) result
  /-- The bound on following references was too small. -/
  | exhausted {result : Checked α} : Determines store other tasks (.error .exhausted) result

namespace Determines

variable {store other : Store} {tasks others : List Task} {α β : Type}

/-- Nothing is demanded for a value that is there. -/
theorem ok (value : α) : store.Determines other [] (.ok value) (.ok value) :=
  .returned .rest nofun fun _ => rfl

/-- Checks in sequence are determined by their tasks in sequence. -/
theorem bind {first first' : Checked α} {onward onward' : α → Checked β}
    (here : store.Determines other tasks first first')
    (there : ∀ value, first = .ok value →
      store.Determines other others (onward value) (onward' value)) :
    store.Determines other (tasks ++ others) (first >>= onward) (first' >>= onward') := by
  cases here with
  | @returned demanded value _ run resolved same =>
    have next := there value rfl
    have agreed {later : List Reference} (agrees : store.ResolvesAlike other (demanded ++ later)) :
        first' = .ok value := same fun reference member => agrees reference (by simp [member])
    change store.Determines other _ (onward value) _
    generalize onward value = result at next ⊢
    cases next with
    | returned run' resolved' same' =>
      refine .returned (run.append run') (List.forall_mem_append.mpr ⟨resolved, resolved'⟩) ?_
      intro agrees
      rw [agreed agrees]
      exact same' fun reference member => agrees reference (List.mem_append_right _ member)
    | unresolved run' resolved' fails same' =>
      have whole := run.append run'
      rw [← List.append_assoc] at whole
      refine .unresolved whole (List.forall_mem_append.mpr ⟨resolved, resolved'⟩) fails ?_
      rw [List.append_assoc]
      intro agrees
      rw [agreed agrees]
      exact same' fun reference member => agrees reference (List.mem_append_right _ member)
    | exhausted => exact .exhausted
  | unresolved run resolved fails same =>
    refine .unresolved (run.before others) resolved fails fun agrees => ?_
    rw [same agrees]
    rfl
  | exhausted => exact .exhausted

/-- What comes of a value afterwards demands nothing. -/
theorem map {first first' : Checked α} (here : store.Determines other tasks first first')
    (make : α → Checked β) (made : ∀ value, ∃ result, make value = .ok result) :
    store.Determines other tasks (first >>= make) (first' >>= make) := by
  have after (value : α) (_ : first = .ok value) :
      store.Determines other [] (make value) (make value) := by
    obtain ⟨result, same⟩ := made value
    rw [same]
    exact .ok result
  have whole := here.bind after
  rwa [List.append_nil] at whole

/-- A task is determined by what comes after its beginning, if the references that are demanded
right away stand for shapes. -/
theorem of_begin {task : Task} {result onward result' : Checked α}
    (resolved : store.ResolvesAll (store.begin task).1)
    (after : store.Determines other (store.begin task).2 result onward)
    (entered : store.ResolvesAlike other (store.begin task).1 → result' = onward) :
    store.Determines other [task] result result' := by
  have begun {demanded : List Reference} {left : List Task}
      (run : store.Demands (store.begin task).2 demanded left) :
      store.Demands [task] ((store.begin task).1 ++ demanded) left :=
    .next (by rwa [List.append_nil])
  have agreed {demanded : List Reference}
      (agrees : store.ResolvesAlike other ((store.begin task).1 ++ demanded)) :
      result' = onward ∧ store.ResolvesAlike other demanded :=
    ⟨entered fun reference member => agrees reference (List.mem_append_left _ member),
      fun reference member => agrees reference (List.mem_append_right _ member)⟩
  cases after with
  | returned run resolved' same =>
    refine .returned (begun run) (List.forall_mem_append.mpr ⟨resolved, resolved'⟩) fun agrees => ?_
    rw [(agreed agrees).1, same (agreed agrees).2]
  | unresolved run resolved' fails same =>
    have whole := begun run
    rw [← List.append_assoc] at whole
    refine .unresolved whole (List.forall_mem_append.mpr ⟨resolved, resolved'⟩) fails ?_
    rw [List.append_assoc]
    intro agrees
    rw [(agreed agrees).1, same (agreed agrees).2]
  | exhausted => exact .exhausted

/-- A task that demands nothing right away is determined by what comes after its beginning. -/
theorem of_silent {task : Task} {result result' : Checked α} (silent : (store.begin task).1 = [])
    (after : store.Determines other (store.begin task).2 result result') :
    store.Determines other [task] result result' := by
  apply of_begin _ after fun _ => rfl
  rw [silent]
  exact nofun

/-- The checks of items are determined by the tasks of the elements. -/
theorem items {check check' : Json → Checked Outcome} {task : Json → Task} {elements : List Json}
    (each : ∀ element ∈ elements,
      store.Determines other [task element] (check element) (check' element)) (start : Nat) :
    store.Determines other (elements.map task) (itemFailures check start elements)
      (itemFailures check' start elements) := by
  induction elements generalizing start with
  | nil => exact .ok _
  | cons element rest ih =>
    obtain ⟨first, later⟩ := List.forall_mem_cons.mp each
    refine first.bind fun outcome _ => ?_
    exact (ih later (start + 1)).map _ fun failures => ⟨_, rfl⟩

/-- The check of an array is determined by the tasks of its elements. -/
theorem elements {check check' : Option Json → Checked Outcome} {shape : Shape}
    {elements : List Json}
    (each : ∀ element ∈ elements, store.Determines other [(.shape shape, some element)]
      (check (some element)) (check' (some element))) :
    store.Determines other
      ((elements.map some).map fun candidate => (.shape shape, candidate))
      (itemFailures (fun element => check (some element)) 0 elements >>= fun failures =>
        .ok (Outcome.ofItems failures))
      (itemFailures (fun element => check' (some element)) 0 elements >>= fun failures =>
        .ok (Outcome.ofItems failures)) := by
  rw [List.map_map]
  exact .map (.items each 0) _ fun _ => ⟨_, rfl⟩

variable {follow follow' : Follow}

/-- The checks of properties are determined by their tasks. -/
theorem properties {properties : List Property} {value : Json}
    (each : ∀ property ∈ properties,
      store.Determines other [(property.target, property.accessor.select? value)]
        (property.target.check follow (property.accessor.select? value))
        (property.target.check follow' (property.accessor.select? value))) :
    store.Determines other
      (properties.map fun property => (property.target, property.accessor.select? value))
      (Property.failures follow properties value)
      (Property.failures follow' properties value) := by
  induction properties with
  | nil => exact .ok _
  | cons property rest ih =>
    obtain ⟨first, later⟩ := List.forall_mem_cons.mp each
    cases property
    refine first.bind fun outcome _ => ?_
    exact (ih later).map _ fun failures => ⟨_, rfl⟩

/-- The checks of alternatives are determined by the tasks of those up to the first valid one. -/
theorem alternatives {targets : List Target} {candidate : Option Json}
    (each : ∀ target ∈ targets, store.Determines other [(target, candidate)]
      (target.check follow candidate) (target.check follow' candidate))
    (taken : ∀ target ∈ targets, ∀ outcome, target.check follow candidate = .ok outcome →
      store.takes candidate target = outcome.isValid) :
    store.Determines other
      ((throughFirst (store.takes candidate) targets).map fun target => (target, candidate))
      (Target.failures? follow targets candidate)
      (Target.failures? follow' targets candidate) := by
  induction targets with
  | nil => exact .ok _
  | cons target rest ih =>
    obtain ⟨first, later⟩ := List.forall_mem_cons.mp each
    obtain ⟨takes, takesLater⟩ := List.forall_mem_cons.mp taken
    rw [throughFirst]
    split
    · rename_i valid
      rw [← List.append_nil [target], List.map_append]
      refine first.bind fun outcome checked => ?_
      rw [takes outcome checked] at valid
      rw [if_pos valid, if_pos valid]
      exact .ok _
    · rename_i invalid
      refine first.bind fun outcome checked => ?_
      rw [takes outcome checked] at invalid
      rw [if_neg invalid, if_neg invalid]
      exact (ih later takesLater).map _ fun failures => ⟨_, rfl⟩

/-- Checks against what a reference stands for are determined by demanding it once, provided that
smaller bounds on following references lead to checks that are determined. -/
theorem reference {task : Task} {reference : Reference} (candidates : List (Option Json))
    (begins : store.begin task = store.enter candidates (.reference reference)) {bound : Nat}
    (combine : (Option Json → Checked Outcome) → Checked α)
    (stops : ∀ cause, combine (fun _ => .error cause) = .error cause)
    (parts : ∀ smaller < bound, ∀ shape : Shape,
      store.Determines other (candidates.map fun candidate => (.shape shape, candidate))
        (combine (shape.check (store.follow smaller)))
        (combine (shape.check (other.follow smaller)))) :
    store.Determines other [task] (combine (store.follow bound reference))
      (combine (other.follow bound reference)) := by
  cases resolved : store.resolve reference with
  | error error =>
    simp only [enter, resolved] at begins
    have run : store.Demands [task] ([] ++ [reference]) [] := by
      have begun : store.Demands [task] ((store.begin task).1 ++ []) (store.begin task).2 :=
        .next (by rw [List.append_nil]; exact .rest)
      rwa [begins] at begun
    have interrupted : store.follow bound reference = fun _ => .error (.unresolved error) :=
      funext (store.follow_of_unresolved resolved bound)
    rw [interrupted, stops]
    refine .unresolved run (List.forall_mem_nil _) resolved fun agrees => ?_
    have same := agrees reference List.mem_cons_self
    rw [resolved] at same
    cases unresolved : other.resolve reference with
    | ok shape => simp [unresolved, Except.map] at same
    | error error' =>
      rw [unresolved] at same
      obtain rfl := Except.error.inj same
      rw [← stops]
      exact congrArg combine (funext (other.follow_of_unresolved unresolved bound))
  | ok shape =>
    simp only [enter, resolved] at begins
    cases bound with
    | zero =>
      have cut : store.follow 0 reference = fun _ => .error .exhausted :=
        funext (store.follow_zero_of_resolved resolved)
      rw [cut, stops]
      exact .exhausted
    | succ smaller =>
      have entered : store.follow (smaller + 1) reference =
          shape.value.check (store.follow smaller) :=
        funext (store.follow_succ_of_resolved resolved smaller)
      have after : store.Determines other (store.begin task).2
          (combine (shape.value.check (store.follow smaller)))
          (combine (shape.value.check (other.follow smaller))) := by
        rw [begins]
        exact parts smaller (Nat.lt_succ_self smaller) shape.value
      rw [entered]
      refine of_begin ?_ after ?_
      · rw [begins]
        exact List.forall_mem_singleton.mpr ⟨shape, resolved⟩
      · rw [begins]
        intro agrees
        have same := agrees reference List.mem_cons_self
        rw [resolved] at same
        cases found : other.resolve reference with
        | error error => simp [found, Except.map] at same
        | ok shape' =>
          rw [found] at same
          have entry : shape'.value = shape.value := Except.ok.inj same
          rw [← entry]
          exact congrArg combine (funext (other.follow_succ_of_resolved found smaller))

end Determines

/-- Whether an alternative is valid is the same under every bound that suffices. -/
theorem takes_of_check {store : Store} {bound : Nat} {target : Target} {candidate : Option Json}
    {outcome : Outcome} (checked : target.check (store.follow bound) candidate = .ok outcome) :
    store.takes candidate target = outcome.isValid := by
  have ends : target.check (store.follow bound) candidate ≠ .error .exhausted := by
    rw [checked]
    exact nofun
  have same := store.check_follow_bound_of_ends ends
  rw [checked] at same
  rw [takes, same]

/-- Every check is determined by what its task demands. -/
theorem check_determines (store other : Store) (bound : Nat) (target : Target)
    (candidate : Option Json) :
    store.Determines other [(target, candidate)] (target.check (store.follow bound) candidate)
      (target.check (other.follow bound) candidate) := by
  induction bound using Nat.strong_induction_on generalizing target candidate with
  | _ bound smaller =>
    induction target using Target.inductionOnParts generalizing candidate with
    | step whole ih =>
      match whole with
      | .reference reference =>
        exact .reference [candidate] rfl (fun check => check candidate) (fun _ => rfl)
          fun less below shape => smaller less below (.shape shape) candidate
      | .shape (.kind _) => exact .of_silent rfl (.ok _)
      | .shape (.literal _) => exact .of_silent rfl (.ok _)
      | .shape (.custom _) => exact .of_silent rfl (.ok _)
      | .shape (.wrapped inner) => exact .of_silent rfl (ih _ .inner candidate)
      | .shape (.finished _ root) => exact .of_silent rfl (ih _ .root candidate)
      | .shape (.object properties) =>
        match candidate with
        | some (.object members) =>
          refine .of_silent rfl (.map (.properties fun property member => ?_) _ fun _ => ⟨_, rfl⟩)
          exact ih _ (.property member) _
        | none | some .null | some (.bool _) | some (.number _) | some (.string _)
        | some (.array _) => exact .of_silent rfl (.ok _)
      | .shape (.array item) =>
        match candidate with
        | some (.array []) => exact .of_silent rfl (.ok _)
        | some (.array (first :: rest)) =>
          match item with
          | .shape shape =>
            exact .of_silent rfl (.elements fun element _ => ih _ .item (some element))
          | .reference reference =>
            exact .reference ((first :: rest).map some) rfl
              (fun check =>
                itemFailures (fun element => check (some element)) 0 (first :: rest) >>=
                  fun failures => .ok (Outcome.ofItems failures))
              (fun _ => rfl) fun less below shape =>
                .elements fun element _ => smaller less below (.shape shape) (some element)
        | none | some .null | some (.bool _) | some (.number _) | some (.string _)
        | some (.object _) => exact .of_silent rfl (.ok _)
      | .shape (.union first rest) =>
        rw [Target.check, Target.check, Shape.check_union, Shape.check_union]
        refine .of_silent rfl (.map (.alternatives (fun target member => ?_) ?_) _ ?_)
        · exact ih _ (.alternative member) candidate
        · exact fun target _ outcome checked => takes_of_check checked
        · intro result
          cases result <;> exact ⟨_, rfl⟩

/-- What stands for a shape is not missing. -/
theorem ResolvesAll.not_mem_of_fails {store : Store} {references : List Reference}
    (resolved : store.ResolvesAll references) {reference : Reference} {error : RegistryError}
    (fails : store.resolve reference = .error error) : reference ∉ references := by
  intro member
  obtain ⟨shape, found⟩ := resolved reference member
  rw [found] at fails
  cases fails

/-- No reference that is demanded later is the first one that cannot be resolved as well. -/
theorem Demands.eq_of_first_unresolved {store : Store} {tasks left left' : List Task}
    {earlier earlier' : List Reference} {reference reference' : Reference}
    {error error' : RegistryError}
    (run : store.Demands tasks (earlier ++ [reference]) left)
    (resolved : store.ResolvesAll earlier) (fails : store.resolve reference = .error error)
    (run' : store.Demands tasks (earlier' ++ [reference']) left')
    (resolved' : store.ResolvesAll earlier')
    (fails' : store.resolve reference' = .error error') : reference' = reference := by
  rcases run.prefix_or run' with first | first
  · rcases List.prefix_concat_iff.mp first with same | within
    · exact (List.singleton_inj.mp (List.append_inj_right' same rfl)).symm
    · exact absurd (within.mem (by simp)) (resolved'.not_mem_of_fails fails)
  · rcases List.prefix_concat_iff.mp first with same | within
    · exact List.singleton_inj.mp (List.append_inj_right' same rfl)
    · exact absurd (within.mem (by simp)) (resolved.not_mem_of_fails fails')

/-- An evaluation that ends is determined by the references that it demands. It is interrupted
exactly if one of them cannot be resolved, and then by the first one that cannot, with the text of
that failure; and it ends in the same way in every store that has the same shapes for them, whatever
stands under other keys. -/
theorem evaluation_determined_by_demands (store : Store) (shape : Shape) (candidate : Option Json)
    (ends : store.evaluate shape candidate ≠ .error .exhausted) :
    ((∃ cause, store.evaluate shape candidate = .error cause) ↔
      ∃ reference, store.Demanded shape candidate reference ∧
        ∃ error, store.resolve reference = .error error) ∧
    (∀ cause, store.evaluate shape candidate = .error cause ↔
      ∃ earlier reference left error,
        store.Demands [(.shape shape, candidate)] (earlier ++ [reference]) left ∧
          store.ResolvesAll earlier ∧ store.resolve reference = .error error ∧
          cause = .unresolved error ∧ cause.message = error.message) ∧
    ∀ other : Store,
      (∀ reference, store.Demanded shape candidate reference →
        (other.resolve reference).map Held.value = (store.resolve reference).map Held.value) →
      other.evaluate shape candidate = store.evaluate shape candidate := by
  have determined (other : Store) : store.Determines other [(.shape shape, candidate)]
      (store.evaluate shape candidate)
      (other.evaluateWithin (store.bound candidate) shape candidate) :=
    store.check_determines other _ _ _
  generalize store.evaluate shape candidate = result at ends determined
  refine ⟨?_, ?_, ?_⟩
  · constructor
    · rintro ⟨cause, rfl⟩
      cases determined store with
      | unresolved run resolved fails _ =>
        exact ⟨_, ⟨_, _, run, List.mem_append_right _ List.mem_cons_self⟩, _, fails⟩
      | exhausted => exact absurd rfl ends
    · rintro ⟨reference, ⟨demanded, left, run, member⟩, error, fails⟩
      cases determined store with
      | returned done resolved _ =>
        exact absurd ((done.prefix_of_done run).mem member) (resolved.not_mem_of_fails fails)
      | unresolved _ _ _ _ => exact ⟨_, rfl⟩
      | exhausted => exact ⟨_, rfl⟩
  · intro cause
    constructor
    · rintro rfl
      cases determined store with
      | unresolved run resolved fails _ => exact ⟨_, _, _, _, run, resolved, fails, rfl, rfl⟩
      | exhausted => exact absurd rfl ends
    · rintro ⟨earlier, reference, left, error, run, resolved, fails, rfl, _⟩
      cases determined store with
      | returned done resolvedAll _ =>
        exact absurd ((done.prefix_of_done run).mem (by simp)) (resolvedAll.not_mem_of_fails fails)
      | unresolved run' resolved' fails' _ =>
        obtain rfl := run.eq_of_first_unresolved resolved fails run' resolved' fails'
        rw [Except.error.inj (fails'.symm.trans fails)]
      | exhausted => exact absurd rfl ends
  · intro other same
    have agrees {demanded : List Reference} {left : List Task}
        (run : store.Demands [(.shape shape, candidate)] demanded left) :
        store.ResolvesAlike other demanded :=
      fun reference member => same reference ⟨demanded, left, run, member⟩
    have within : other.evaluateWithin (store.bound candidate) shape candidate = result := by
      cases determined other with
      | returned run _ told => exact told (agrees run)
      | unresolved run _ _ told => exact told (agrees run)
      | exhausted => exact absurd rfl ends
    rw [← within] at ends ⊢
    exact other.evaluate_eq_of_ends ends

/-- Three keys are missing, and the first one that is demanded is that of an absent member: the item
of an empty list and the alternative after a valid one are not demanded. A store that has a shape
for the key that is not demanded interrupts the evaluation in the same way. -/
theorem record_interrupted_by_absent_member :
    let entries : Entries := [("Known", .of (.kind .number))]
    let store : Store := ⟨[.opened { entries := entries }]⟩
    let other : Store := ⟨[.opened { entries := entries ++ [("Unused", .of .null)] }]⟩
    let record : Shape := .object
      [.field "list" (.shape (.array (.reference ⟨0, "Unused"⟩))),
        .field "choice" (.shape (.union (.reference ⟨0, "Known"⟩) [.reference ⟨0, "Unused"⟩])),
        .field "absent" (.reference ⟨0, "Missing"⟩), .field "last" (.reference ⟨0, "Last"⟩)]
    let candidate : Option Json := some (.object
      [("choice", .number (.integer ⟨1, by decide⟩)), ("list", .array [])])
    store.evaluate record candidate ≠ .error .exhausted ∧
      (∃ reference, store.Demanded record candidate reference ∧
        ∃ error, store.resolve reference = .error error) ∧
      store.evaluate record candidate = .error (.unresolved (.unresolvedKey "Missing")) ∧
      (∀ reference, store.Demanded record candidate reference →
        (other.resolve reference).map Held.value = (store.resolve reference).map Held.value) ∧
      other.evaluate record candidate = .error (.unresolved (.unresolvedKey "Missing")) := by
  intro entries store other record candidate
  have done : store.Demands [(.shape record, candidate)]
      [⟨0, "Known"⟩, ⟨0, "Missing"⟩, ⟨0, "Last"⟩] [] :=
    .next (.next (.next (.next (.next (.next (.next .rest))))))
  have first : store.Demands [(.shape record, candidate)] ([⟨0, "Known"⟩] ++ [⟨0, "Missing"⟩])
      [(.reference ⟨0, "Last"⟩, none)] :=
    .next (.next (.next (.next (.next (.next .rest)))))
  have same (reference : Reference) (demanded : store.Demanded record candidate reference) :
      (other.resolve reference).map Held.value = (store.resolve reference).map Held.value := by
    obtain ⟨before, left, run, member⟩ := demanded
    have listed := (done.prefix_of_done run).mem member
    simp only [List.mem_cons, List.not_mem_nil, or_false] at listed
    rcases listed with rfl | rfl | rfl <;> rfl
  have ends : store.evaluate record candidate ≠ .error .exhausted := nofun
  obtain ⟨interrupted, first_unresolved, unchanged⟩ :=
    evaluation_determined_by_demands store record candidate ends
  have missing : store.evaluate record candidate =
      .error (.unresolved (.unresolvedKey "Missing")) :=
    (first_unresolved _).mpr
      ⟨_, _, _, _, first, List.forall_mem_singleton.mpr ⟨_, rfl⟩, rfl, rfl, rfl⟩
  exact ⟨ends, interrupted.mp ⟨_, missing⟩, missing, same, (unchanged other same).trans missing⟩

end Store

end Conform

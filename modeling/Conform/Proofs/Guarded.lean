import Mathlib.Logic.Relation
import Conform.Proofs.Bound
/-!
# Guarded recursion

A graph may lead back to a reference as often as it likes, if on every way around there is a guard:
the item of an array, or a property whose accessor takes a step into the object. Behind a guard the
candidate is less deep, or absent. Where no reference leads back to itself without a guard, a
reference that is followed inside another one comes with a smaller candidate or with fewer
references ahead that can be got to without a guard. So evaluation ends, and a bound on following
references suffices that is known from the number of references in the graph and the depth of the
candidate.
-/

namespace Conform

open Relation

/-- An accessor may select the whole object. -/
def Accessor.MayStay (accessor : Accessor) : Prop :=
  ∃ members, accessor.select? (.object members) = some (.object members)

/-- The accessor of given steps may select the whole object exactly if there is no step. -/
theorem Accessor.mayStay_ofSteps_iff (steps : List Step) :
    (Accessor.ofSteps steps).MayStay ↔ steps = [] := by
  constructor
  · rintro ⟨members, stays⟩
    cases steps with
    | nil => rfl
    | cons step rest =>
      obtain ⟨middle, stepped, rested⟩ := Option.bind_eq_some_iff.mp stays
      have shallower := Json.depth_lt_of_select? stepped
      rcases Json.eq_or_depth_lt_of_at? rested with same | deeper
      · exact absurd shallower (same ▸ Nat.lt_irrefl _)
      · exact absurd shallower (Nat.lt_asymm deeper)
  · rintro rfl
    exact ⟨[], rfl⟩

/-- A target exposes a reference: there is a way from the target to the reference without a guard,
through nothing but alternatives, shapes inside others, finished roots, and properties whose
accessor may select the whole object. -/
inductive Target.Exposes : Target → Reference → Prop
  /-- The target is the reference. -/
  | reference {reference : Reference} : Exposes (.reference reference) reference
  /-- A property whose accessor may select the whole object exposes it. -/
  | property {properties : List Property} {property : Property} {reference : Reference}
      (member : property ∈ properties) (stays : property.accessor.MayStay)
      (exposes : Exposes property.target reference) :
      Exposes (.shape (.object properties)) reference
  /-- An alternative exposes it. -/
  | alternative {first alternative : Target} {rest : List Target} {reference : Reference}
      (member : alternative ∈ first :: rest) (exposes : Exposes alternative reference) :
      Exposes (.shape (.union first rest)) reference
  /-- The shape inside exposes it. -/
  | inner {inner : Shape} {reference : Reference} (exposes : Exposes (.shape inner) reference) :
      Exposes (.shape (.wrapped inner)) reference
  /-- The root exposes it. -/
  | root {storage : StorageId} {root : Shape} {reference : Reference}
      (exposes : Exposes (.shape root) reference) :
      Exposes (.shape (.finished storage root)) reference

/-- What is within a candidate is not deeper. -/
theorem Within.depth_le {part candidate : Option Json} (within : Within part candidate) :
    Json.depth? part ≤ Json.depth? candidate := by
  rcases within with rfl | shallower
  · exact Nat.le_refl _
  · exact Nat.le_of_lt shallower

/-- A check that asks about a reference at the whole candidate has come there without a guard. -/
theorem Target.Asks.exposes {target : Target} {candidate : Option Json} {reference : Reference}
    {part : Option Json} (asks : target.Asks candidate reference part)
    (whole : Json.depth? part = Json.depth? candidate) : target.Exposes reference := by
  induction asks with
  | reference => exact .reference
  | @property _ property members _ part member asks ih =>
    have inside := asks.within.depth_le
    rcases Within.select? property.accessor (.object members) with stays | shallower
    · exact .property member ⟨members, stays⟩ (ih (stays ▸ whole))
    · exact absurd inside (Nat.not_le.mpr (whole ▸ shallower))
  | item member asks _ =>
    have inside := asks.within.depth_le
    have shallower := Json.depth_lt_of_mem member
    exact absurd inside (Nat.not_le.mpr (whole ▸ shallower))
  | alternative member _ ih => exact .alternative member (ih whole)
  | inner _ ih => exact .inner (ih whole)
  | root _ ih => exact .root (ih whole)

/-- A check ends if the answers of its follower to what it may ask do. -/
theorem Target.check_ends (target : Target) {candidate : Option Json} {follow : Follow}
    (ends : ∀ reference part, target.Asks candidate reference part →
      follow reference part ≠ .error .exhausted) :
    target.check follow candidate ≠ .error .exhausted := by
  have related : (Congruence.allowing (· ≠ .exhausted)).Related (target.check follow candidate)
      (target.check follow candidate) := by
    apply Congruence.check_related_of_asks _ target candidate
    rintro reference part asks cause failed rfl
    exact ends reference part asks failed
  exact fun exhausted => related .exhausted exhausted rfl

namespace Store

variable (store : Store)

/-- A reference leads to another one without a guard, if what it stands for exposes the other
one. -/
def Unguarded (reference other : Reference) : Prop :=
  ∃ entry, store.resolve reference = .ok entry ∧ Target.Exposes (.shape entry.value) other

/-- References that stand for shapes with no other references than these, where no reference leads
to itself without a guard. -/
structure Guarded (keys : Finset Reference) : Prop where
  /-- What they stand for has none but these. -/
  closed : ∀ reference ∈ keys, ∀ entry, store.resolve reference = .ok entry →
    ∀ other, Target.Contains (.shape entry.value) (.reference other) → other ∈ keys
  /-- None leads to itself without a guard. -/
  acyclic : ∀ reference ∈ keys, ¬ TransGen store.Unguarded reference reference

open Classical in
/-- The number of references that a reference leads to without a guard. -/
noncomputable def exposure (keys : Finset Reference) (reference : Reference) : Nat :=
  (keys.filter (TransGen store.Unguarded reference)).card

namespace Guarded

variable {store : Store} {keys : Finset Reference}

/-- No reference leads to all of them without a guard. -/
theorem exposure_lt_card (guarded : store.Guarded keys) {reference : Reference}
    (member : reference ∈ keys) : store.exposure keys reference < keys.card := by
  classical
  apply Finset.card_lt_card
  rw [Finset.filter_ssubset]
  exact ⟨reference, member, guarded.acyclic reference member⟩

/-- A reference that another one leads to without a guard leads to fewer ones. -/
theorem exposure_lt (guarded : store.Guarded keys) {reference other : Reference}
    (member : other ∈ keys) (unguarded : store.Unguarded reference other) :
    store.exposure keys other < store.exposure keys reference := by
  classical
  apply Finset.card_lt_card
  refine Finset.ssubset_iff_of_subset ?_ |>.mpr ⟨other, ?_, ?_⟩
  · intro each further
    rw [Finset.mem_filter] at further ⊢
    exact ⟨further.1, .head unguarded further.2⟩
  · exact Finset.mem_filter.mpr ⟨member, .single unguarded⟩
  · exact fun further => guarded.acyclic other member (Finset.mem_filter.mp further).2

/-- Following a reference ends under a bound that allows all references for every depth below that
of the candidate, and for the candidate itself those that are got to without a guard. -/
theorem follow_ends (guarded : store.Guarded keys) {bound : Nat} {reference : Reference}
    (member : reference ∈ keys) {candidate : Option Json}
    (enough : keys.card * Json.depth? candidate + store.exposure keys reference < bound) :
    store.follow bound reference candidate ≠ .error .exhausted := by
  induction bound generalizing reference candidate with
  | zero => exact absurd enough (Nat.not_lt_zero _)
  | succ bound ih =>
    cases resolved : store.resolve reference with
    | error error => simp [store.follow_of_unresolved resolved]
    | ok entry =>
      rw [store.follow_succ_of_resolved resolved]
      apply Target.check_ends (.shape entry.value)
      intro other part asks
      have known : other ∈ keys :=
        guarded.closed reference member entry resolved other asks.contains
      apply ih known
      rcases Nat.lt_or_eq_of_le asks.within.depth_le with shallower | whole
      · have fewer := guarded.exposure_lt_card known
        have room : keys.card * (Json.depth? part + 1) ≤ keys.card * Json.depth? candidate :=
          Nat.mul_le_mul_left _ shallower
        rw [Nat.mul_succ] at room
        omega
      · have fewer := guarded.exposure_lt known ⟨entry, resolved, asks.exposes whole⟩
        rw [whole]
        omega

/-- Evaluation ends under a bound that allows all references for every depth. -/
theorem evaluateWithin_ends (guarded : store.Guarded keys) {shape : Shape}
    (inside : ∀ reference, Target.Contains (.shape shape) (.reference reference) →
      reference ∈ keys) {candidate : Option Json} {bound : Nat}
    (enough : keys.card * (Json.depth? candidate + 1) ≤ bound) :
    store.evaluateWithin bound shape candidate ≠ .error .exhausted := by
  apply Target.check_ends (.shape shape)
  intro reference part asks
  have known := inside reference asks.contains
  apply guarded.follow_ends known
  have fewer := guarded.exposure_lt_card known
  have room : keys.card * (Json.depth? part + 1) ≤ keys.card * (Json.depth? candidate + 1) :=
    Nat.mul_le_mul_left _ (Nat.succ_le_succ asks.within.depth_le)
  rw [Nat.mul_succ] at room
  omega

end Guarded

/-- Where every reference in the graph of a shape stands for a shape, there are finitely many of
them. -/
theorem exists_keys {shape : Shape}
    (resolves : ∀ reference, store.Reaches (.shape shape) (.reference reference) →
      ∃ entry, store.resolve reference = .ok entry) :
    ∃ keys : Finset Reference, ∀ reference,
      reference ∈ keys ↔ store.Reaches (.shape shape) (.reference reference) := by
  classical
  use store.addresses.toFinset.filter fun reference =>
    store.Reaches (.shape shape) (.reference reference)
  intro reference
  rw [Finset.mem_filter, List.mem_toFinset]
  constructor
  · exact fun both => both.2
  · intro reaches
    obtain ⟨entry, resolved⟩ := resolves reference reaches
    exact ⟨store.mem_addresses_of_resolved resolved, reaches⟩

/-- Where every reference in the graph stands for a shape, evaluation that ends has an outcome. -/
theorem exists_outcome_of_ends {shape : Shape} {candidate : Option Json} {bound : Nat}
    (resolves : ∀ reference, store.Reaches (.shape shape) (.reference reference) →
      ∃ entry, store.resolve reference = .ok entry)
    (ends : store.evaluateWithin bound shape candidate ≠ .error .exhausted) :
    ∃ outcome, store.evaluateWithin bound shape candidate = .ok outcome := by
  have only := store.exhausted_of_resolves bound resolves candidate
  cases result : store.evaluateWithin bound shape candidate with
  | ok outcome => exact ⟨outcome, rfl⟩
  | error cause =>
    have exhausted : cause = .exhausted := only cause result
    exact absurd (exhausted ▸ result) ends

/-- Where every reference in the graph of a shape stands for a shape, and none leads to itself
without a guard, every candidate has an outcome. The references in the graph are finitely many, and
every bound on following references gives that outcome from their number times one more than the
depth of the candidate on; an absent candidate has depth zero. -/
theorem evaluate_terminates {store : Store} {shape : Shape}
    (resolves : ∀ reference, store.Reaches (.shape shape) (.reference reference) →
      ∃ entry, store.resolve reference = .ok entry)
    (acyclic : ∀ reference, store.Reaches (.shape shape) (.reference reference) →
      ¬ TransGen store.Unguarded reference reference) :
    ∃ keys : Finset Reference,
      (∀ reference, reference ∈ keys ↔ store.Reaches (.shape shape) (.reference reference)) ∧
      ∀ candidate, ∃ outcome, store.evaluate shape candidate = .ok outcome ∧
        ∀ bound, keys.card * (Json.depth? candidate + 1) ≤ bound →
          store.evaluateWithin bound shape candidate = .ok outcome := by
  obtain ⟨keys, listed⟩ := store.exists_keys resolves
  have guarded : store.Guarded keys := by
    constructor
    · intro reference member entry resolved other contains
      have reached := (listed reference).mp member
      have onward := store.reaches_of_contains contains
      exact (listed other).mpr (reached.trans (.head (.entry resolved) onward))
    · exact fun reference member => acyclic reference ((listed reference).mp member)
  have inside (reference : Reference)
      (contains : Target.Contains (.shape shape) (.reference reference)) : reference ∈ keys :=
    (listed reference).mpr (store.reaches_of_contains contains)
  refine ⟨keys, listed, fun candidate => ?_⟩
  have agrees (bound : Nat) (enough : keys.card * (Json.depth? candidate + 1) ≤ bound) :
      store.evaluate shape candidate = store.evaluateWithin bound shape candidate :=
    store.evaluate_eq_of_ends (guarded.evaluateWithin_ends inside enough)
  have ends := guarded.evaluateWithin_ends inside
    (Nat.le_refl (keys.card * (Json.depth? candidate + 1)))
  obtain ⟨outcome, result⟩ := store.exists_outcome_of_ends resolves ends
  have evaluated : store.evaluate shape candidate = .ok outcome :=
    (agrees _ (Nat.le_refl _)).trans result
  exact ⟨outcome, evaluated, fun bound enough => (agrees bound enough).symm.trans evaluated⟩

end Store

/-- The shape of lists: `null`, or a node. -/
def Shape.list (id : StorageId) : Shape := .union (.shape .null) [.reference ⟨id, "Node"⟩]

/-- The shape of the nodes of lists: objects with a list as their tail. -/
def Shape.node (id : StorageId) : Shape :=
  .object [.field "tail" (.reference ⟨id, "List"⟩)]

/-- A store with one storage, finished with the shapes of lists and of their nodes. -/
def Store.ofLists : Store := ⟨[.finished [("List", .of (.list 0)), ("Node", .of (.node 0))]]⟩

namespace Store

/-- The shape of lists stands under its key. -/
theorem resolve_list : ofLists.resolve ⟨0, "List"⟩ = .ok (.of (.list 0)) := rfl

/-- The shape of nodes stands under its key. -/
theorem resolve_node : ofLists.resolve ⟨0, "Node"⟩ = .ok (.of (.node 0)) := rfl

/-- The references in the graph of lists are those to lists and to nodes. -/
theorem reaches_list {target : Target} (reaches : ofLists.Reaches (.shape (.list 0)) target) :
    target = .shape (.list 0) ∨ target = .shape .null ∨ target = .reference ⟨0, "Node"⟩ ∨
      target = .shape (.node 0) ∨ target = .reference ⟨0, "List"⟩ := by
  induction reaches with
  | refl => exact .inl rfl
  | tail _ leads ih =>
    rcases ih with rfl | rfl | rfl | rfl | rfl
    · rcases leads with ⟨_ | _ | member⟩
      rcases List.mem_pair.mp member with rfl | rfl
      · exact .inr (.inl rfl)
      · exact .inr (.inr (.inl rfl))
    · obtain ⟨⟨⟩⟩ := leads
    · cases leads with
      | part has => cases has
      | entry resolved =>
        obtain rfl := Except.ok.inj (resolve_node.symm.trans resolved)
        exact .inr (.inr (.inr (.inl rfl)))
    · obtain ⟨⟨member⟩⟩ := leads
      obtain rfl := List.mem_singleton.mp member
      exact .inr (.inr (.inr (.inr rfl)))
    · cases leads with
      | part has => cases has
      | entry resolved =>
        obtain rfl := Except.ok.inj (resolve_list.symm.trans resolved)
        exact .inl rfl

/-- Without a guard, lists lead to nodes only. -/
theorem eq_of_unguarded_list {other : Reference}
    (unguarded : ofLists.Unguarded ⟨0, "List"⟩ other) : other = ⟨0, "Node"⟩ := by
  obtain ⟨entry, resolved, exposes⟩ := unguarded
  obtain rfl := Except.ok.inj (resolve_list.symm.trans resolved)
  obtain _ | _ | ⟨member, exposes⟩ := exposes
  rcases List.mem_pair.mp member with rfl | rfl
  · cases exposes
  · cases exposes
    rfl

/-- The tail of a node is behind a guard. -/
theorem not_unguarded_node (other : Reference) : ¬ ofLists.Unguarded ⟨0, "Node"⟩ other := by
  rintro ⟨entry, resolved, exposes⟩
  obtain rfl := Except.ok.inj (resolve_node.symm.trans resolved)
  obtain _ | ⟨member, stays, _⟩ := exposes
  obtain rfl := List.mem_singleton.mp member
  exact absurd ((Accessor.mayStay_ofSteps_iff _).mp stays) (List.cons_ne_nil _ _)

/-- Every candidate has an outcome as a list. -/
theorem lists_terminate :
    ∃ keys : Finset Reference,
      (∀ reference, reference ∈ keys ↔
        ofLists.Reaches (.shape (.list 0)) (.reference reference)) ∧
      ∀ candidate, ∃ outcome, ofLists.evaluate (.list 0) candidate = .ok outcome ∧
        ∀ bound, keys.card * (Json.depth? candidate + 1) ≤ bound →
          ofLists.evaluateWithin bound (.list 0) candidate = .ok outcome := by
  apply evaluate_terminates
  · intro reference reaches
    rcases reaches_list reaches with same | same | same | same | same <;> cases same
    · exact ⟨_, resolve_node⟩
    · exact ⟨_, resolve_list⟩
  · intro reference reaches around
    obtain ⟨next, first, rest⟩ := TransGen.head'_iff.mp around
    rcases reaches_list reaches with same | same | same | same | same <;> cases same
    · exact not_unguarded_node next first
    · obtain rfl := eq_of_unguarded_list first
      rcases ReflTransGen.cases_head rest with same | ⟨further, second, _⟩
      · exact absurd same (by decide)
      · exact not_unguarded_node further second

end Store

end Conform

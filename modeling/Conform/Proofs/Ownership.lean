import Mathlib.Logic.Relation
import Mathlib.Order.WellFounded
import Conform.Proofs.History
/-!
# Which storage owns which

A storage owns another one when a root that was finished with the other one stands in an entry of
the first. References may lead around in circles, but ownership does not: a finished root exists
only after its registry was finished, and from then on nothing is registered there. So the
storages lie in layers, by the time at which they were finished, and what is registered in one has
finished roots of lower layers only.
-/

namespace Conform

open Relation

namespace Store

open Registry

/-- A storage owns another one: a root that was finished with the other one stands in one of its
entries, at any depth. -/
def Owns (store : Store) (owner owned : StorageId) : Prop :=
  ∃ entry ∈ (store.cell owner).entries,
    ∃ root, Target.Contains (.shape entry.2.value) (.shape (.finished owned root))

/-- The storages that a storage owns are those that its entries keep. -/
theorem mem_keeps_iff_owns (store : Store) (owner owned : StorageId) :
    owned ∈ (store.cell owner).keeps ↔ store.Owns owner owned := by
  rw [Cell.keeps, List.mem_flatMap]
  apply exists_congr
  intro entry
  apply and_congr_right
  intro _
  rw [entry.2.mem_keeps, ← Target.mem_roots_iff]
  rfl

/-- A storage is open, or it has not been created yet. -/
def Pending (store : Store) (id : StorageId) : Prop :=
  store.cells.length ≤ id ∨ ∃ registry, store.cell id = .opened registry

/-- What is pending was pending before. -/
theorem Step.pending {store later : Store} {change : Change} (step : store.Step change later)
    {id : StorageId} (pending : later.Pending id) : store.Pending id := by
  rcases pending with absent | ⟨registry, opened⟩
  · exact .inl (Nat.le_trans step.evolves.created absent)
  · have effect := step.effect id
    rw [opened] at effect
    generalize same : Cell.opened registry = cell at effect
    cases effect with
    | kept => exact .inr ⟨registry, same.symm⟩
    | created new => exact .inl new
    | called before _ => exact .inr ⟨_, before⟩
    | accepted | released => cases same

/-- What was registered in a storage was registered before, or the storage is pending and the
finished roots in what was registered are those of finished storages. -/
theorem Step.mem_indexed {store later : Store} {change : Change}
    (step : store.Step change later) {changes : List Change} {id : StorageId}
    {entry : String × HeldShape} (member : entry ∈ indexed (callsOn id (changes ++ [change]))) :
    entry ∈ indexed (callsOn id changes) ∨
      later.Pending id ∧ ∀ root ∈ entry.2.value.roots,
        ∃ entries, store.cell root = .finished entries := by
  have effect := step.effect id
  generalize state : later.cell id = cell at effect
  cases effect with
  | kept silent | released silent =>
    rw [callsOn_concat_of_silent silent] at member
    exact .inl member
  | created | accepted =>
    rw [callsOn_concat_of_silent rfl] at member
    exact .inl member
  | @called registry last opened rooted =>
    rw [callsOn_concat_same, Registry.indexed, List.filterMap_append, List.mem_append] at member
    rcases member with old | new
    · exact .inl old
    · obtain ⟨only, listed, registered⟩ := List.mem_filterMap.mp new
      obtain rfl := List.mem_singleton.mp listed
      exact .inr ⟨.inr ⟨_, state⟩, rooted entry.1 entry.2 registered⟩

/-- Storages lie in layers, and everything that was registered in a storage has finished roots of
lower layers only. The pending storages are in the top layer, and the finished ones below. -/
structure Layered (store : Store) (changes : List Change) (layer : StorageId → Nat) (top : Nat) :
    Prop where
  /-- The top layer is the highest one. -/
  bounded : ∀ id, layer id ≤ top
  /-- Pending storages lie there. -/
  pending : ∀ id, store.Pending id → layer id = top
  /-- Finished storages lie below. -/
  finished : ∀ id entries, store.cell id = .finished entries → layer id < top
  /-- Finished roots of what was registered lie below the storage. -/
  indexed : ∀ id, ∀ entry ∈ indexed (callsOn id changes), ∀ root ∈ entry.2.value.roots,
    layer root < layer id

open Classical in
/-- The layers one change later: what is still pending then is lifted above the top. -/
noncomputable def lift (later : Store) (layer : StorageId → Nat) (top : Nat) (id : StorageId) :
    Nat :=
  if later.Pending id then top + 1 else layer id

/-- What is not pending stays in its layer. -/
theorem lift_of_not_pending {later : Store} {id : StorageId} (closed : ¬ later.Pending id)
    (layer : StorageId → Nat) (top : Nat) : later.lift layer top id = layer id :=
  if_neg closed

/-- What is pending is lifted. -/
theorem lift_of_pending {later : Store} {id : StorageId} (pending : later.Pending id)
    (layer : StorageId → Nat) (top : Nat) : later.lift layer top id = top + 1 :=
  if_pos pending

/-- Nothing sinks. -/
theorem le_lift {later : Store} {layer : StorageId → Nat} {top : Nat} {id : StorageId}
    (bounded : layer id ≤ top) : layer id ≤ later.lift layer top id := by
  by_cases pending : later.Pending id
  · rw [lift_of_pending pending]
    exact Nat.le_succ_of_le bounded
  · rw [lift_of_not_pending pending]

/-- What lies below something else was not pending, so no elementary change lifts it. -/
theorem Layered.lift_of_lt {store later : Store} {changes : List Change}
    {layer : StorageId → Nat} {top : Nat} (layered : store.Layered changes layer top)
    {change : Change} (step : store.Step change later) {id : StorageId} (below : layer id < top) :
    later.lift layer top id = layer id := by
  apply lift_of_not_pending
  intro pending
  exact absurd (layered.pending id (step.pending pending)) (Nat.ne_of_lt below)

/-- Every elementary change keeps storages in layers, when it lifts what is still pending. -/
theorem Layered.step {store later : Store} {changes : List Change} {layer : StorageId → Nat}
    {top : Nat} (layered : store.Layered changes layer top) {change : Change}
    (step : store.Step change later) :
    later.Layered (changes ++ [change]) (later.lift layer top) (top + 1) := by
  constructor
  case bounded =>
    intro id
    by_cases pending : later.Pending id
    · rw [lift_of_pending pending]
    · rw [lift_of_not_pending pending]
      exact Nat.le_succ_of_le (layered.bounded id)
  case pending => exact fun id pending => lift_of_pending pending layer top
  case finished =>
    intro id entries frozen
    have closed : ¬ later.Pending id := by
      rintro (absent | ⟨registry, opened⟩)
      · exact absurd (lt_length_of_cell frozen nofun) (Nat.not_lt.mpr absent)
      · exact absurd (frozen.symm.trans opened) nofun
    rw [lift_of_not_pending closed]
    exact Nat.lt_succ_of_le (layered.bounded id)
  case indexed =>
    intro id entry member root kept
    have stays (below : layer root < top) : later.lift layer top root = layer root :=
      layered.lift_of_lt step below
    have bounded := layered.bounded id
    rcases step.mem_indexed member with old | ⟨pending, rooted⟩
    · have below : layer root < layer id := layered.indexed id entry old root kept
      rw [stays (Nat.lt_of_lt_of_le below bounded)]
      exact Nat.lt_of_lt_of_le below (le_lift bounded)
    · obtain ⟨entries, frozen⟩ := rooted root kept
      have below : layer root < top := layered.finished root entries frozen
      rw [stays below, lift_of_pending pending]
      exact Nat.lt_succ_of_lt below

/-- The storages of a store lie in layers. -/
theorem History.layered {store : Store} {changes : List Change}
    (history : History {} changes store) : ∃ layer top, store.Layered changes layer top := by
  induction history with
  | nil =>
    refine ⟨fun _ => 0, 0, fun _ => Nat.le_refl 0, fun _ _ => rfl, ?_, nofun⟩
    intro id entries frozen
    exact absurd (lt_length_of_cell frozen nofun) (Nat.not_lt_zero id)
  | snoc _ step ih =>
    obtain ⟨layer, top, layered⟩ := ih
    exact ⟨_, _, layered.step step⟩

namespace History

variable {store : Store} {changes : List Change}

/-- An entry of a storage was registered there. -/
theorem indexed_of_mem_entries (history : History {} changes store) {id : StorageId}
    {entry : String × HeldShape} (member : entry ∈ (store.cell id).entries) :
    entry ∈ indexed (callsOn id changes) := by
  apply mem_indexed_of_mem_entries
  cases state : store.cell id with
  | opened registry =>
    rw [state] at member
    rw [← history.records.opened id registry state]
    exact member
  | finished entries =>
    rw [state] at member
    rw [← history.records.finished id entries state]
    exact member
  | released =>
    rw [state] at member
    cases member

/-- What a storage owns lies below it. -/
theorem layer_lt_of_owns (history : History {} changes store) {layer : StorageId → Nat} {top : Nat}
    (layered : store.Layered changes layer top) {owner owned : StorageId}
    (owns : store.Owns owner owned) : layer owned < layer owner := by
  obtain ⟨entry, member, root, contains⟩ := owns
  have registered := history.indexed_of_mem_entries member
  have kept := (Target.mem_roots_iff (.shape entry.2.value) owned).mpr ⟨root, contains⟩
  exact layered.indexed owner entry registered owned kept

/-- Going from a storage to what it owns comes to an end. -/
theorem wellFounded_owned (history : History {} changes store) :
    WellFounded fun owned owner => store.Owns owner owned := by
  obtain ⟨layer, top, layered⟩ := history.layered
  exact Subrelation.wf (history.layer_lt_of_owns layered) (measure layer).wf

/-- Going from a storage to what owns it comes to an end. -/
theorem wellFounded_owners (history : History {} changes store) : WellFounded store.Owns := by
  obtain ⟨layer, top, layered⟩ := history.layered
  have nearer {owner owned : StorageId} (owns : store.Owns owner owned) :
      top - layer owner < top - layer owned := by
    have below := history.layer_lt_of_owns layered owns
    have bounded := layered.bounded owner
    omega
  exact Subrelation.wf nearer (measure fun id => top - layer id).wf

end History

end Store

end Conform

import Conform.Proofs.Derivation
import Conform.Proofs.Registry
import Conform.Store.Ownership
/-!
# How a store evolves

A storage goes through its states in one direction: while it is open its registry grows, it may
then be finished with everything the registry had at that time, and in the end it is released. So
what a reference stands for can be lost, when its storage is released, but it never changes, and
neither does the outcome of any candidate as long as no storage in the graph is released.
-/

namespace Conform

/-- A storage that is in one state may be in the other one later. -/
inductive Cell.Evolves : Cell → Cell → Prop
  /-- Its registry has grown. -/
  | grown {earlier later : Registry} (extended : earlier.Extends later) :
      Evolves (.opened earlier) (.opened later)
  /-- Its registry has grown and was finished. -/
  | finished {earlier later : Registry} {entries : Entries} (extended : earlier.Extends later)
      (accepted : later.finish = .ok entries) : Evolves (.opened earlier) (.finished entries)
  /-- It was finished before. -/
  | frozen {entries : Entries} : Evolves (.finished entries) (.finished entries)
  /-- It was released. -/
  | released {cell : Cell} : Evolves cell .released

namespace Cell.Evolves

/-- Nothing has to happen. -/
theorem refl : ∀ cell : Cell, cell.Evolves cell
  | .opened registry => .grown (.refl registry)
  | .finished _ => .frozen
  | .released => .released

/-- One change may follow another one. -/
theorem trans {earlier middle later : Cell} (first : earlier.Evolves middle)
    (second : middle.Evolves later) : earlier.Evolves later := by
  cases second with
  | released => exact .released
  | frozen => exact first
  | grown next =>
    cases first with
    | grown extended => exact .grown (extended.trans next)
  | finished next accepted =>
    cases first with
    | grown extended => exact .finished (extended.trans next) accepted

/-- Unless the storage was released, it still has the entries that it had. -/
theorem entries_prefix {earlier later : Cell} (evolves : earlier.Evolves later)
    (kept : later ≠ .released) : earlier.entries <+: later.entries := by
  cases evolves with
  | grown extended => exact extended.entries
  | frozen => exact List.prefix_rfl
  | released => exact absurd rfl kept
  | finished extended accepted =>
    obtain ⟨_, _, rfl⟩ := (Registry.finish_eq_ok_iff _ _).mp accepted
    exact extended.entries

end Cell.Evolves

namespace Store

/-- A storage that was never created has been released. -/
theorem cell_of_length_le {store : Store} {id : StorageId} (absent : store.cells.length ≤ id) :
    store.cell id = .released := by
  rw [cell, List.getD_eq_getElem?_getD, List.getElem?_eq_none absent, Option.getD_none]

/-- A storage that is not released was created. -/
theorem lt_length_of_cell {store : Store} {id : StorageId} {cell : Cell}
    (state : store.cell id = cell) (present : cell ≠ .released) : id < store.cells.length :=
  Nat.lt_of_not_le fun absent => present (state.symm.trans (cell_of_length_le absent))

/-- The storages of one store are those of the other one at a later time, with new ones maybe. -/
structure Evolves (earlier later : Store) : Prop where
  /-- No number is used again. -/
  created : earlier.cells.length ≤ later.cells.length
  /-- Every storage has evolved. -/
  cell : ∀ id < earlier.cells.length, (earlier.cell id).Evolves (later.cell id)

/-- The storages of one store are those of the other one, with open registries grown maybe. -/
structure Grows (earlier later : Store) : Prop where
  /-- None was created. -/
  created : earlier.cells.length = later.cells.length
  /-- Every storage is as it was, or its registry has grown. -/
  cell : ∀ id, earlier.cell id = later.cell id ∨
    ∃ before after, earlier.cell id = .opened before ∧ later.cell id = .opened after ∧
      before.Extends after

namespace Evolves

/-- Nothing has to happen. -/
theorem refl (store : Store) : store.Evolves store := ⟨Nat.le_refl _, fun _ _ => .refl _⟩

/-- One change may follow another one. -/
theorem trans {earlier middle later : Store} (first : earlier.Evolves middle)
    (second : middle.Evolves later) : earlier.Evolves later := by
  constructor
  · exact Nat.le_trans first.created second.created
  · intro id known
    have remembered : id < middle.cells.length := Nat.lt_of_lt_of_le known first.created
    exact (first.cell id known).trans (second.cell id remembered)

/-- What a reference stands for is the same later, unless its storage was released. -/
theorem resolve_eq_ok {earlier later : Store} (evolves : earlier.Evolves later)
    {reference : Reference} (kept : later.cell reference.storage ≠ .released) {shape : HeldShape}
    (resolved : earlier.resolve reference = .ok shape) : later.resolve reference = .ok shape := by
  rw [resolve_eq_ok_iff] at resolved ⊢
  have present : earlier.cell reference.storage ≠ .released := by
    intro released
    simp [released, Cell.entries] at resolved
  have cellEvolves := evolves.cell reference.storage (lt_length_of_cell rfl present)
  exact (cellEvolves.entries_prefix kept).lookup_eq_some resolved

end Evolves

/-- A storage was created and has been released since. -/
structure Lost (store : Store) (id : StorageId) : Prop where
  /-- It was created. -/
  created : id < store.cells.length
  /-- It has been released. -/
  released : store.cell id = .released

/-- What is lost stays lost. -/
theorem Lost.evolves {earlier later : Store} {id : StorageId} (lost : earlier.Lost id)
    (evolves : earlier.Evolves later) : later.Lost id := by
  have cell := evolves.cell id lost.created
  rw [lost.released] at cell
  generalize state : later.cell id = last at cell
  cases cell
  exact ⟨Nat.lt_of_lt_of_le lost.created evolves.created, state⟩

/-- Releasing a storage loses it. -/
theorem lost_setCell {store : Store} {id : StorageId} (created : id < store.cells.length) :
    (store.setCell id .released).Lost id :=
  ⟨by rwa [setCell, List.length_set], cell_setCell_same _ _ _ created⟩

namespace Grows

/-- Nothing has to happen. -/
theorem refl (store : Store) : store.Grows store := ⟨rfl, fun _ => .inl rfl⟩

/-- Growth adds up. -/
theorem trans {earlier middle later : Store} (first : earlier.Grows middle)
    (second : middle.Grows later) : earlier.Grows later := by
  constructor
  · exact first.created.trans second.created
  · intro id
    rcases first.cell id with same | ⟨before, between, opened, reopened, extended⟩
    · rw [same]
      exact second.cell id
    · rcases second.cell id with same | ⟨again, after, found, grown, further⟩
      · exact .inr ⟨before, between, opened, same ▸ reopened, extended⟩
      · obtain rfl := Cell.opened.inj (reopened.symm.trans found)
        exact .inr ⟨before, after, opened, grown, extended.trans further⟩

/-- Growth is a way to evolve. -/
theorem evolves {earlier later : Store} (grows : earlier.Grows later) : earlier.Evolves later := by
  constructor
  · exact Nat.le_of_eq grows.created
  · intro id _
    rcases grows.cell id with same | ⟨before, after, opened, grown, extended⟩
    · rw [same]
      exact .refl _
    · rw [opened, grown]
      exact .grown extended

/-- An open registry stays open. -/
theorem opened {earlier later : Store} (grows : earlier.Grows later) {id : StorageId}
    {registry : Registry} (isOpen : earlier.cell id = .opened registry) :
    ∃ grown, later.cell id = .opened grown := by
  rcases grows.cell id with same | ⟨_, after, _, grown, _⟩
  · exact ⟨registry, same ▸ isOpen⟩
  · exact ⟨after, grown⟩

/-- A finished storage stays as it is. -/
theorem finished {earlier later : Store} (grows : earlier.Grows later) {id : StorageId}
    {entries : Entries} (frozen : earlier.cell id = .finished entries) :
    later.cell id = .finished entries := by
  rcases grows.cell id with same | ⟨before, _, opened, _, _⟩
  · exact same ▸ frozen
  · exact absurd (frozen.symm.trans opened) nofun

end Grows

/-- Changing the registry of a storage changes that storage only, and only while it is open. -/
theorem cell_modifyRegistry (store : Store) (id other : StorageId)
    (change : Registry → Registry) :
    (store.modifyRegistry id change).cell other = store.cell other ∨
      ∃ registry, store.cell other = .opened registry ∧
        (store.modifyRegistry id change).cell other = .opened (change registry) := by
  unfold modifyRegistry opened?
  cases state : store.cell id with
  | finished entries => exact .inl rfl
  | released => exact .inl rfl
  | opened registry =>
    by_cases same : id = other
    · subst same
      have created : id < store.cells.length := lt_length_of_cell state nofun
      exact .inr ⟨registry, state, cell_setCell_same _ _ _ created⟩
    · exact .inl (cell_setCell_other _ _ _ _ same)

/-- Changing the registry of a storage leaves the other storages alone. -/
theorem cell_modifyRegistry_of_ne (store : Store) {id other : StorageId} (different : id ≠ other)
    (change : Registry → Registry) :
    (store.modifyRegistry id change).cell other = store.cell other := by
  unfold modifyRegistry
  split
  · exact cell_setCell_other _ _ _ _ different
  · rfl

/-- Changing the registry of an open storage to one that has grown grows the store. -/
theorem grows_modifyRegistry (store : Store) (id : StorageId) (change : Registry → Registry)
    (growing : ∀ registry : Registry, registry.Extends (change registry)) :
    store.Grows (store.modifyRegistry id change) := by
  constructor
  · unfold modifyRegistry
    split
    · simp [setCell]
    · rfl
  · intro other
    rcases store.cell_modifyRegistry id other change with same | ⟨registry, opened, changed⟩
    · exact .inl same.symm
    · exact .inr ⟨registry, change registry, opened, changed, growing registry⟩

/-- Creating a storage changes no other one. -/
theorem cell_create_of_ne (store : Store) {id : StorageId} (other : id ≠ store.next) :
    store.create.cell id = store.cell id := by
  rcases Nat.lt_or_gt_of_ne other with known | beyond
  · simp only [create, cell, List.getD_eq_getElem?_getD, List.getElem?_append_left known]
  · have absent : store.create.cells.length ≤ id := by
      rw [create, List.length_append]
      exact beyond
    rw [cell_of_length_le absent, cell_of_length_le (Nat.le_of_lt beyond)]

/-- The storage that is created has an empty registry. -/
theorem cell_create_next (store : Store) : store.create.cell store.next = .opened {} := by
  simp [create, cell, next]

/-- Creating a storage is a way to evolve. -/
theorem evolves_create (store : Store) : store.Evolves store.create := by
  constructor
  · simp [create]
  · intro id known
    rw [store.cell_create_of_ne (Nat.ne_of_lt known)]
    exact .refl _

/-- Changing one storage is a way to evolve if that storage evolves. -/
theorem evolves_setCell (store : Store) {id : StorageId} {cell : Cell}
    (evolves : (store.cell id).Evolves cell) : store.Evolves (store.setCell id cell) := by
  constructor
  · simp [setCell]
  · intro other known
    by_cases same : id = other
    · subst same
      rw [cell_setCell_same _ _ _ known]
      exact evolves
    · rw [cell_setCell_other _ _ _ _ same]
      exact .refl _

/-- A storage that is not released is one of the store. -/
theorem cell_mem_cells {store : Store} {id : StorageId} (present : store.cell id ≠ .released) :
    store.cell id ∈ store.cells := by
  have created := lt_length_of_cell rfl present
  rw [cell, List.getD_eq_getElem?_getD, List.getElem?_eq_getElem created]
  exact List.getElem_mem created

/-- One round of letting go decides on every storage by itself. -/
theorem cell_releaseOnce (store : Store) (holdings : Holdings) (id : StorageId) :
    (store.releaseOnce holdings).cell id =
      keep holdings (store.rooted holdings) id (store.cell id) := by
  by_cases created : id < store.cells.length
  · simp [releaseOnce, cell, created]
  · have absent : store.cells.length ≤ id := Nat.le_of_not_lt created
    have still : (store.releaseOnce holdings).cells.length ≤ id := by
      rw [releaseOnce, List.length_mapIdx]
      exact absent
    rw [cell_of_length_le absent, cell_of_length_le still, keep]

/-- A storage keeps its state or is released. -/
theorem keep_eq_or (holdings : Holdings) (rooted : List StorageId) (id : StorageId) (cell : Cell) :
    keep holdings rooted id cell = cell ∨ keep holdings rooted id cell = .released := by
  cases cell with
  | opened registry => simp only [keep]; split <;> simp
  | finished entries => simp only [keep]; split <;> simp
  | released => exact .inl rfl

/-- What is left has the entries that it had. -/
theorem mem_entries_of_keep {holdings : Holdings} {rooted : List StorageId} {id : StorageId}
    {cell : Cell} {entry : String × HeldShape}
    (member : entry ∈ (keep holdings rooted id cell).entries) : entry ∈ cell.entries := by
  rcases keep_eq_or holdings rooted id cell with same | released
  · exact same ▸ member
  · rw [released] at member
    cases member

/-- One round of letting go is a way to evolve. -/
theorem evolves_releaseOnce (store : Store) (holdings : Holdings) :
    store.Evolves (store.releaseOnce holdings) := by
  constructor
  · simp [releaseOnce]
  · intro id _
    rw [cell_releaseOnce]
    rcases keep_eq_or holdings (store.rooted holdings) id (store.cell id) with same | released
    · rw [same]
      exact .refl _
    · rw [released]
      exact .released

/-- Any number of rounds of letting go is a way to evolve. -/
theorem evolves_releaseRounds (store : Store) (holdings : Holdings) (rounds : Nat) :
    store.Evolves (store.releaseRounds holdings rounds) := by
  induction rounds generalizing store with
  | zero => exact .refl store
  | succ rounds ih =>
    simp only [releaseRounds]
    split
    · exact store.evolves_releaseOnce holdings
    · exact (store.evolves_releaseOnce holdings).trans (ih _)

/-- The references in the graph of a target stand for the same shapes in another store. -/
def Agrees (earlier later : Store) (target : Target) : Prop :=
  ∀ reference shape, earlier.Reaches target (.reference reference) →
    earlier.resolve reference = .ok shape → later.resolve reference = .ok shape

/-- What belongs to the graph has no references of its own. -/
theorem Agrees.step {earlier later : Store} {whole part : Target}
    (agrees : earlier.Agrees later whole) (leads : earlier.Leads whole part) :
    earlier.Agrees later part :=
  fun reference shape reaches => agrees reference shape (.head leads reaches)

/-- An outcome that is derived in one store is derived in every other one in which the references
of the graph stand for the same shapes. -/
theorem Yields.transfer {earlier later : Store} {target : Target} {candidate : Option Json}
    {outcome : Outcome} (yields : earlier.Yields target candidate outcome)
    (agrees : earlier.Agrees later target) : later.Yields target candidate outcome := by
  induction yields with
  | kind same => exact .kind same
  | wrongKind different => exact .wrongKind different
  | literal accepted => exact .literal accepted
  | wrongValue refused => exact .wrongValue refused
  | object outcomes _ ih =>
    exact .object outcomes fun property member =>
      ih property member (agrees.step (.part (.property member)))
  | notObject different => exact .notObject different
  | array outcomes _ ih =>
    exact .array outcomes fun element member => ih element member (agrees.step (.part .item))
  | notArray different => exact .notArray different
  | @chosen first choice rest before after candidate split outcomes _ refused _ ih taken =>
    have listed {target : Target} (member : target ∈ before ++ choice :: after) :
        Target.HasPart (.shape (.union first rest)) target := .alternative (split ▸ member)
    refine .chosen split outcomes (fun target member => ?_) refused ?_
    · exact ih target member (agrees.step (.part (listed (List.mem_append_left _ member))))
    · exact taken (agrees.step (.part (listed (by simp))))
  | refused outcomes _ refused ih =>
    exact .refused outcomes
      (fun target member => ih target member (agrees.step (.part (.alternative member)))) refused
  | custom => exact .custom
  | wrapped _ ih => exact .wrapped (ih (agrees.step (.part .inner)))
  | finished _ ih => exact .finished (ih (agrees.step (.part .root)))
  | reference resolved _ ih =>
    exact .reference (agrees _ _ .refl resolved) (ih (agrees.step (.entry resolved)))

/-- An outcome that evaluation returns is returned again later, if no storage of a reference in
the graph was released. -/
theorem Evolves.evaluate_eq_ok {earlier later : Store} (evolves : earlier.Evolves later)
    {shape : Shape} {candidate : Option Json} {outcome : Outcome}
    (kept : ∀ reference, earlier.Reaches (.shape shape) (.reference reference) →
      later.cell reference.storage ≠ .released)
    (returned : earlier.evaluate shape candidate = .ok outcome) :
    later.evaluate shape candidate = .ok outcome := by
  rw [evaluate_eq_ok_iff] at returned ⊢
  exact returned.transfer fun reference _ reaches resolved =>
    evolves.resolve_eq_ok (kept reference reaches) resolved

end Store

end Conform

import Mathlib.Data.List.Nodup
import Conform.Session.Basic
import Conform.Proofs.Evolution
/-!
# Sound sessions

In a sound session every reference that stands in anything held, directly or as a part of a
registered shape, is known to the storage that it refers to, and the storage of every finished
root that stands there is finished and has not been released. A registry has its own storage, which
is open. The changes that commands are made of keep a session sound, and so does letting go of
storages.
-/

namespace Conform

/-- A storage knows that a reference was made for a key. A finished one has a shape for it, and
from a released one nothing is expected any more. -/
def Cell.Notes (key : String) : Cell → Prop
  | .opened registry => key ∈ registry.referenced
  | .finished entries => key ∈ entries.map Prod.fst
  | .released => True

/-- What a storage knows, it never forgets. -/
theorem Cell.Notes.evolves {key : String} {earlier later : Cell} (notes : earlier.Notes key)
    (evolves : earlier.Evolves later) : later.Notes key := by
  cases evolves with
  | grown extended => exact extended.referenced.subset notes
  | frozen => exact notes
  | released => exact trivial
  | finished extended accepted =>
    obtain ⟨_, complete, rfl⟩ := (Registry.finish_eq_ok_iff _ _).mp accepted
    exact complete key (extended.referenced.subset notes)

namespace Store

/-- The storage of a reference knows it. -/
structure Notes (store : Store) (reference : Reference) : Prop where
  /-- The storage was created. -/
  created : reference.storage < store.cells.length
  /-- It knows the key. -/
  noted : (store.cell reference.storage).Notes reference.key

/-- Everything that stands in a target is known to the store. -/
structure Admits (store : Store) (target : Target) : Prop where
  /-- Storages know the references to them. -/
  references : ∀ reference, target.Contains (.reference reference) → store.Notes reference
  /-- The storages of finished roots are finished. -/
  roots : ∀ id root, target.Contains (.shape (.finished id root)) →
    ∃ entries, store.cell id = .finished entries

/-- The storages of one store are those of the other one, with none of the finished ones
released. -/
structure Retains (earlier later : Store) : Prop extends earlier.Evolves later where
  /-- Finished storages stay as they are. -/
  finished : ∀ id entries, earlier.cell id = .finished entries → later.cell id = .finished entries

/-- Growth retains everything. -/
theorem Grows.retains {earlier later : Store} (grows : earlier.Grows later) :
    earlier.Retains later :=
  ⟨grows.evolves, fun _ _ => grows.finished⟩

/-- Creating a storage retains everything. -/
theorem retains_create (store : Store) : store.Retains store.create := by
  constructor
  · exact store.evolves_create
  · intro id entries finished
    have known : id < store.cells.length := lt_length_of_cell finished nofun
    exact (store.cell_create_of_ne (Nat.ne_of_lt known)).trans finished

/-- Changing an open storage retains everything. -/
theorem retains_setCell (store : Store) {id : StorageId} {registry : Registry}
    (opened : store.cell id = .opened registry) {cell : Cell}
    (evolves : (Cell.opened registry).Evolves cell) : store.Retains (store.setCell id cell) := by
  constructor
  · exact store.evolves_setCell (opened ▸ evolves)
  · intro other entries finished
    have different : id ≠ other := by
      rintro rfl
      exact absurd (opened.symm.trans finished) nofun
    exact (cell_setCell_other _ _ _ _ different).trans finished

/-- A storage goes on knowing its references. -/
theorem Notes.evolves {earlier later : Store} {reference : Reference}
    (notes : earlier.Notes reference) (evolves : earlier.Evolves later) : later.Notes reference :=
  ⟨Nat.lt_of_lt_of_le notes.created evolves.created,
    notes.noted.evolves (evolves.cell _ notes.created)⟩

/-- An open registry knows a reference that it has just noted. -/
theorem notes_refer {store : Store} {reference : Reference} {registry : Registry}
    (opened : store.cell reference.storage = .opened registry) :
    (store.refer reference).Notes reference := by
  have created : reference.storage < store.cells.length := lt_length_of_cell opened nofun
  have changed : store.refer reference =
      store.setCell reference.storage (.opened (registry.refer reference.key)) := by
    simp [refer, modifyRegistry, opened?, opened]
  rw [changed]
  constructor
  · simp [setCell, created]
  · rw [cell_setCell_same _ _ _ created]
    simp [Cell.Notes, Registry.refer]

/-- A noted reference to a finished storage stands for a shape. -/
theorem Notes.resolve {store : Store} {reference : Reference} (notes : store.Notes reference)
    {entries : Entries} (finished : store.cell reference.storage = .finished entries) :
    ∃ shape, store.resolve reference = .ok shape := by
  have noted := notes.noted
  rw [finished] at noted
  obtain ⟨entry, member, same⟩ := List.mem_map.mp noted
  have found : (entries.lookup reference.key).isSome :=
    List.lookup_isSome_iff.mpr ⟨entry, member, beq_iff_eq.mpr same.symm⟩
  obtain ⟨shape, present⟩ := Option.isSome_iff_exists.mp found
  refine ⟨shape, (resolve_eq_ok_iff _ _ _).mpr ?_⟩
  rw [finished]
  exact present

namespace Admits

variable {store : Store}

/-- Whatever stands in an admitted target is admitted. -/
theorem contains {whole part : Target} (admits : store.Admits whole)
    (contains : whole.Contains part) : store.Admits part :=
  ⟨fun reference inside => admits.references reference (contains.trans inside),
    fun id root inside => admits.roots id root (contains.trans inside)⟩

/-- A noted reference is admitted. -/
theorem reference {reference : Reference} (notes : store.Notes reference) :
    store.Admits (.reference reference) := by
  constructor
  · intro other contains
    rcases Relation.ReflTransGen.cases_head contains with same | ⟨part, has, _⟩
    · exact Target.reference.inj same ▸ notes
    · cases has
  · intro id root contains
    rcases Relation.ReflTransGen.cases_head contains with same | ⟨part, has, _⟩
    · cases same
    · cases has

/-- A shape is admitted if its parts are, and a finished root if its storage is finished too. -/
theorem shape {shape : Shape}
    (parts : ∀ part, Target.HasPart (.shape shape) part → store.Admits part)
    (finished : ∀ id root, shape = .finished id root →
      ∃ entries, store.cell id = .finished entries) :
    store.Admits (.shape shape) := by
  constructor
  · intro reference contains
    rcases Relation.ReflTransGen.cases_head contains with same | ⟨part, has, inside⟩
    · cases same
    · exact (parts part has).references reference inside
  · intro id root contains
    rcases Relation.ReflTransGen.cases_head contains with same | ⟨part, has, inside⟩
    · exact finished id root (Target.shape.inj same)
    · exact (parts part has).roots id root inside

/-- What is admitted stays admitted as long as no finished storage is released. -/
theorem retains {later : Store} {target : Target} (admits : store.Admits target)
    (retains : store.Retains later) : later.Admits target := by
  constructor
  · intro reference inside
    exact (admits.references reference inside).evolves retains.toEvolves
  · intro id root inside
    obtain ⟨entries, finished⟩ := admits.roots id root inside
    exact ⟨entries, retains.finished id entries finished⟩

/-- One round of letting go does not take away what a target needs, if it keeps the storages of the
finished roots in the target. -/
theorem releaseOnce {holdings : Holdings} {target : Target} (admits : store.Admits target)
    (rooted : ∀ id ∈ target.roots, id ∈ store.rooted holdings) :
    (store.releaseOnce holdings).Admits target := by
  constructor
  · intro reference inside
    exact (admits.references reference inside).evolves (store.evolves_releaseOnce holdings)
  · intro id root inside
    obtain ⟨entries, finished⟩ := admits.roots id root inside
    have kept := rooted id ((target.mem_roots_iff id).mpr ⟨root, inside⟩)
    exact ⟨entries, by rw [cell_releaseOnce, finished, keep, if_pos kept]⟩

end Admits

end Store

namespace Session

/-- What is held in a session is admitted by its store. -/
structure Sound (session : Session) : Prop where
  /-- The slots. -/
  slots : ∀ entry ∈ session.slots, session.store.Admits entry.2.value
  /-- The registered shapes. -/
  entries : ∀ id, ∀ entry ∈ (session.store.cell id).entries,
    session.store.Admits (.shape entry.2.value)
  /-- The named registries are open. -/
  registries : ∀ entry ∈ session.registries,
    ∃ registry, session.store.cell entry.2 = .opened registry
  /-- Each of them has its own storage. -/
  distinct : (session.registries.map Prod.snd).Nodup

/-- A target is alive: it stands in a slot or in a registered shape. -/
inductive Has (session : Session) (target : Target) : Prop
  /-- It stands in a slot. -/
  | slot {entry : String × HeldTarget} (member : entry ∈ session.slots)
      (contains : entry.2.value.Contains target)
  /-- It stands in a registered shape. -/
  | entry {id : StorageId} {entry : String × HeldShape}
      (member : entry ∈ (session.store.cell id).entries)
      (contains : Target.Contains (.shape entry.2.value) target)

/-- Whatever stands in something alive is alive. -/
theorem Has.contains {session : Session} {whole part : Target} (has : session.Has whole)
    (contains : whole.Contains part) : session.Has part := by
  cases has with
  | slot member inside => exact .slot member (inside.trans contains)
  | entry member inside => exact .entry member (inside.trans contains)

namespace Sound

variable {session : Session}

/-- What is alive is admitted. -/
theorem admits (sound : session.Sound) {target : Target} (has : session.Has target) :
    session.store.Admits target := by
  cases has with
  | slot member inside => exact (sound.slots _ member).contains inside
  | entry member inside => exact (sound.entries _ _ member).contains inside

/-- What a reference stands for is admitted. -/
theorem admits_of_resolve (sound : session.Sound) {reference : Reference} {shape : HeldShape}
    (resolved : session.store.resolve reference = .ok shape) :
    session.store.Admits (.shape shape.value) := by
  have found := (Store.resolve_eq_ok_iff _ _ _).mp resolved
  exact sound.entries reference.storage _ (mem_of_lookup found)

/-- The empty session is sound. -/
theorem empty : Sound {} where
  slots := nofun
  entries id entry member := by
    rw [Store.cell_of_length_le (Nat.zero_le id)] at member
    cases member
  registries := nofun
  distinct := .nil

/-- Changing the store keeps a session sound, if finished storages stay, open registries stay open
and new entries are admitted. -/
theorem withStore (sound : session.Sound) {later : Store} (retains : session.store.Retains later)
    (entries : ∀ id, ∀ entry ∈ (later.cell id).entries,
      entry ∈ (session.store.cell id).entries ∨ later.Admits (.shape entry.2.value))
    (registries : ∀ entry ∈ session.registries, ∃ registry, later.cell entry.2 = .opened registry) :
    Sound { session with store := later } where
  slots entry member := (sound.slots entry member).retains retains
  entries id entry member := by
    rcases entries id entry member with old | new
    · exact (sound.entries id entry old).retains retains
    · exact new
  registries := registries
  distinct := sound.distinct

/-- Growth keeps a session sound, if new entries are admitted. -/
theorem grow (sound : session.Sound) {later : Store} (grows : session.store.Grows later)
    (entries : ∀ id, ∀ entry ∈ (later.cell id).entries,
      entry ∈ (session.store.cell id).entries ∨ session.store.Admits (.shape entry.2.value)) :
    Sound { session with store := later } := by
  apply sound.withStore grows.retains
  · intro id entry member
    exact (entries id entry member).imp_right fun admits => admits.retains grows.retains
  · intro entry member
    obtain ⟨registry, opened⟩ := sound.registries entry member
    exact grows.opened opened

/-- Growing the registry of a storage keeps a session sound, if its new entries are admitted. -/
theorem modifyRegistry (sound : session.Sound) (id : StorageId) {change : Registry → Registry}
    (growing : ∀ registry : Registry, registry.Extends (change registry))
    (entries : ∀ registry, ∀ entry ∈ (change registry).entries,
      entry ∈ registry.entries ∨ session.store.Admits (.shape entry.2.value)) :
    Sound { session with store := session.store.modifyRegistry id change } := by
  apply sound.grow (session.store.grows_modifyRegistry id change growing)
  intro other entry member
  rcases session.store.cell_modifyRegistry id other change with same | ⟨registry, opened, changed⟩
  · exact .inl (same ▸ member)
  · rw [changed] at member
    rw [opened]
    exact entries registry entry member

/-- Registering an admitted shape keeps a session sound. -/
theorem index (sound : session.Sound) (id : StorageId) (key : String) {shape : HeldShape}
    (admits : session.store.Admits (.shape shape.value)) :
    Sound { session with store := session.store.index id key shape } := by
  apply sound.modifyRegistry id fun registry => registry.extends_index key shape
  intro registry entry member
  rcases Registry.mem_entries_index member with old | rfl
  · exact .inl old
  · exact .inr admits

/-- Noting a reference keeps a session sound. -/
theorem refer (sound : session.Sound) (reference : Reference) :
    Sound { session with store := session.store.refer reference } := by
  apply sound.modifyRegistry reference.storage fun registry => registry.extends_refer reference.key
  intro registry entry member
  exact .inl member

/-- One more registry keeps a session sound. -/
theorem create (sound : session.Sound) : Sound { session with store := session.store.create } := by
  have retains := session.store.retains_create
  apply sound.withStore retains
  · intro id entry member
    by_cases new : id = session.store.next
    · rw [new, session.store.cell_create_next] at member
      cases member
    · rw [session.store.cell_create_of_ne new] at member
      exact .inl member
  · intro entry member
    obtain ⟨registry, opened⟩ := sound.registries entry member
    have known : entry.2 < session.store.cells.length :=
      Store.lt_length_of_cell opened nofun
    exact ⟨registry, (session.store.cell_create_of_ne (Nat.ne_of_lt known)).trans opened⟩

/-- Closing a storage, whose registry has no name any more, keeps a session sound. -/
theorem close (sound : session.Sound) {id : StorageId} {registry : Registry}
    (opened : session.store.cell id = .opened registry)
    (unnamed : id ∉ session.registries.map Prod.snd) {cell : Cell}
    (evolves : (Cell.opened registry).Evolves cell)
    (entries : ∀ entry ∈ cell.entries, entry ∈ registry.entries) :
    Sound { session with store := session.store.setCell id cell } := by
  have retains := session.store.retains_setCell opened evolves
  have created : id < session.store.cells.length := Store.lt_length_of_cell opened nofun
  apply sound.withStore retains
  · intro other entry member
    left
    by_cases same : id = other
    · subst same
      rw [Store.cell_setCell_same _ _ _ created] at member
      rw [opened]
      exact entries entry member
    · rw [Store.cell_setCell_other _ _ _ _ same] at member
      exact member
  · intro entry member
    have different : id ≠ entry.2 := fun same => unnamed (same ▸ List.mem_map_of_mem member)
    obtain ⟨found, stays⟩ := sound.registries entry member
    exact ⟨found, (Store.cell_setCell_other _ _ _ _ different).trans stays⟩

/-- Putting something admitted into a slot keeps a session sound. -/
theorem insertSlot (sound : session.Sound) (name : String) {target : HeldTarget}
    (admits : session.store.Admits target.value) :
    Sound { session with slots := session.slots.insert name target } where
  slots entry member := by
    rcases List.mem_cons.mp member with rfl | old
    · exact admits
    · exact sound.slots entry (List.mem_of_mem_filter old)
  entries := sound.entries
  registries := sound.registries
  distinct := sound.distinct

/-- Emptying a slot keeps a session sound. -/
theorem eraseSlot (sound : session.Sound) (name : String) :
    Sound { session with slots := session.slots.erase name } where
  slots entry member := sound.slots entry (List.mem_of_mem_filter member)
  entries := sound.entries
  registries := sound.registries
  distinct := sound.distinct

/-- Taking the name from a registry keeps a session sound. -/
theorem eraseRegistry (sound : session.Sound) (name : String) :
    Sound { session with registries := session.registries.erase name } where
  slots := sound.slots
  entries := sound.entries
  registries entry member := sound.registries entry (List.mem_of_mem_filter member)
  distinct := sound.distinct.sublist (List.filter_sublist.map _)

/-- Naming an open registry that has no name keeps a session sound. -/
theorem insertRegistry (sound : session.Sound) (name : String) {id : StorageId}
    {registry : Registry} (opened : session.store.cell id = .opened registry)
    (unnamed : id ∉ session.registries.map Prod.snd) :
    Sound { session with registries := session.registries.insert name id } := by
  have erased := sound.eraseRegistry name
  constructor
  case slots => exact sound.slots
  case entries => exact sound.entries
  case registries =>
    intro entry member
    rcases List.mem_cons.mp member with rfl | old
    · exact ⟨registry, opened⟩
    · exact erased.registries entry old
  case distinct =>
    have absent : id ∉ (session.registries.erase name).map Prod.snd :=
      fun member => unnamed ((List.filter_sublist.map _).subset member)
    exact List.nodup_cons.mpr ⟨absent, erased.distinct⟩

/-- A registry has no other name. -/
theorem unnamed_erase (sound : session.Sound) {name : String} {id : StorageId}
    (named : session.registries.lookup name = some id) :
    id ∉ (session.registries.erase name).map Prod.snd := by
  intro member
  obtain ⟨entry, stays, same⟩ := List.mem_map.mp member
  obtain ⟨old, different⟩ := List.mem_filter.mp stays
  have listed := mem_of_lookup named
  have equal : entry = (name, id) := List.inj_on_of_nodup_map sound.distinct old listed same
  simp [equal] at different

/-- One round of letting go keeps a session sound. -/
theorem releaseOnce (sound : session.Sound) :
    Sound { session with store := session.store.releaseOnce session.holdings } := by
  constructor
  case slots =>
    intro entry member
    apply (sound.slots entry member).releaseOnce
    intro id root
    have keeps : id ∈ entry.2.keeps := (entry.2.mem_keeps id).mpr root
    have held : entry.2 ∈ session.holdings.targets := List.mem_map_of_mem member
    exact List.mem_append_left _ (List.mem_flatMap.mpr ⟨entry.2, held, keeps⟩)
  case entries =>
    intro id entry member
    rw [Store.cell_releaseOnce] at member
    have old := Store.mem_entries_of_keep member
    apply (sound.entries id entry old).releaseOnce
    intro other root
    have keeps : other ∈ (session.store.cell id).keeps :=
      List.mem_flatMap.mpr ⟨entry, old, (entry.2.mem_keeps other).mpr root⟩
    have present : session.store.cell id ≠ .released := by
      intro released
      simp [released, Cell.entries] at old
    exact List.mem_append_right _
      (List.mem_flatMap.mpr ⟨session.store.cell id, Store.cell_mem_cells present, keeps⟩)
  case registries =>
    intro entry member
    obtain ⟨registry, opened⟩ := sound.registries entry member
    have named : entry.2 ∈ session.holdings.registries := List.mem_map_of_mem member
    exact ⟨registry, by rw [Store.cell_releaseOnce, opened, Store.keep, if_pos named]⟩
  case distinct => exact sound.distinct

/-- Any number of rounds of letting go keeps a session sound. -/
theorem releaseRounds (rounds : Nat) {store : Store}
    (sound : Sound { session with store := store }) :
    Sound { session with store := store.releaseRounds session.holdings rounds } := by
  induction rounds generalizing store with
  | zero => exact sound
  | succ rounds ih =>
    simp only [Store.releaseRounds]
    split
    · exact sound.releaseOnce
    · exact ih sound.releaseOnce

/-- Letting go of what nothing keeps leaves a session sound. -/
theorem settle (sound : session.Sound) : session.settle.Sound :=
  releaseRounds session.store.cells.length sound

end Sound

end Session

end Conform

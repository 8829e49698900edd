import Conform.Registry.Basic
/-!
# Storages

A store holds the storage of every registry that was ever created, under a number that is never
used again. A storage is open while its registry is, finished when the registry was finished
successfully, and released when nothing keeps it any more. References are resolved in the store:
in an open storage a key may still be missing, in a released one every key is.
-/

namespace Conform

/-- The state of one storage. -/
inductive Cell where
  /-- Its registry is open. -/
  | opened (registry : Registry)
  /-- Its registry was finished with these entries. -/
  | finished (entries : Entries)
  /-- Nothing keeps it any more. -/
  | released

/-- The entries that a storage still has. -/
def Cell.entries : Cell → Entries
  | .opened registry => registry.entries
  | .finished entries => entries
  | .released => []

/-- Every storage, by its number. -/
structure Store where
  /-- The states of the storages. -/
  cells : List Cell := []

namespace Store

/-- The state of a storage; one that was never created has been released. -/
def cell (store : Store) (id : StorageId) : Cell := store.cells.getD id .released

/-- The store with a storage in another state. -/
def setCell (store : Store) (id : StorageId) (cell : Cell) : Store := ⟨store.cells.set id cell⟩

/-- A storage is in the state that it was put into. -/
theorem cell_setCell_same (store : Store) (id : StorageId) (cell : Cell)
    (created : id < store.cells.length) : (store.setCell id cell).cell id = cell := by
  simp [setCell, Store.cell, created]

/-- Other storages stay as they are. -/
theorem cell_setCell_other (store : Store) (id other : StorageId) (cell : Cell)
    (different : id ≠ other) : (store.setCell id cell).cell other = store.cell other := by
  simp [setCell, Store.cell, List.getElem?_set_ne different]

/-- The registry of a storage, while it is open. -/
def opened? (store : Store) (id : StorageId) : Option Registry :=
  match store.cell id with
  | .opened registry => some registry
  | _ => none

/-- The shape that a reference stands for. -/
def resolve (store : Store) (reference : Reference) : Except RegistryError HeldShape :=
  match store.cell reference.storage with
  | .released => .error (.registryDropped reference.key)
  | cell =>
    match cell.entries.lookup reference.key with
    | some shape => .ok shape
    | none => .error (.unresolvedKey reference.key)

/-- A reference stands for a shape exactly if that is the shape under its key. -/
theorem resolve_eq_ok_iff (store : Store) (reference : Reference) (shape : HeldShape) :
    store.resolve reference = .ok shape ↔
      (store.cell reference.storage).entries.lookup reference.key = some shape := by
  unfold resolve
  cases store.cell reference.storage with
  | released => simp [Cell.entries]
  | opened registry =>
    cases found : registry.entries.lookup reference.key <;> simp [Cell.entries, found]
  | finished entries =>
    cases found : entries.lookup reference.key <;> simp [Cell.entries, found]

/-- The number of the next storage. -/
def next (store : Store) : StorageId := store.cells.length

/-- The store with one more storage, the one of an empty registry. -/
def create (store : Store) : Store := ⟨store.cells ++ [.opened {}]⟩

/-- Change the registry of a storage, while it is open. -/
def modifyRegistry (store : Store) (id : StorageId) (change : Registry → Registry) : Store :=
  match store.opened? id with
  | some registry => store.setCell id (.opened (change registry))
  | none => store

/-- Register a shape. -/
def index (store : Store) (id : StorageId) (key : String) (shape : HeldShape) : Store :=
  store.modifyRegistry id (·.index key shape)

/-- Note that a reference was made. -/
def refer (store : Store) (reference : Reference) : Store :=
  store.modifyRegistry reference.storage (·.refer reference.key)

/-- Finish a registry, if it is open. Its root then keeps its storage; after a failure the storage
is gone. -/
def finish? (store : Store) (id : StorageId) (root : HeldShape) :
    Option (Except RegistryError HeldShape × Store) :=
  (store.opened? id).map fun registry =>
    match registry.finish with
    | .ok entries => (.ok (.finished id root), store.setCell id (.finished entries))
    | .error error => (.error error, store.setCell id .released)

end Store

end Conform

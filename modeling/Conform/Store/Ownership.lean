import Conform.Store.Basic
/-!
# Which storages are kept

A finished storage is kept by the finished roots that came from it, wherever they stand: in a
shape that is held from outside, or in an entry of a storage that is itself kept. An open storage
is kept by whoever holds its registry. References keep nothing. `Store.release` lets go of
storages round by round until every storage left is kept.
-/

namespace Conform

/-- The storages that the entries of a storage keep. -/
def Cell.keeps (cell : Cell) : List StorageId := cell.entries.flatMap fun entry => entry.2.keeps

/-- What is held from outside. -/
structure Holdings where
  /-- The storages whose registries are held. -/
  registries : List StorageId
  /-- The shapes and references that are held. -/
  targets : List HeldTarget

namespace Store

/-- The storages that finished roots keep. -/
def rooted (store : Store) (holdings : Holdings) : List StorageId :=
  holdings.targets.flatMap Held.keeps ++ store.cells.flatMap Cell.keeps

/-- A storage with what keeps it; released if nothing does. -/
def keep (holdings : Holdings) (rooted : List StorageId) (id : StorageId) : Cell → Cell
  | .opened registry => if id ∈ holdings.registries then .opened registry else .released
  | .finished entries => if id ∈ rooted then .finished entries else .released
  | .released => .released

/-- Let go of every storage that nothing keeps at the moment. -/
def releaseOnce (holdings : Holdings) (store : Store) : Store :=
  ⟨store.cells.mapIdx (keep holdings (store.rooted holdings))⟩

/-- The number of storages that are not released. -/
def keptCount (store : Store) : Nat :=
  store.cells.countP fun | .released => false | _ => true

/-- Let go of storages for a number of rounds, or until a round lets go of none. -/
def releaseRounds (holdings : Holdings) : Nat → Store → Store
  | 0, store => store
  | rounds + 1, store =>
    let next := store.releaseOnce holdings
    if next.keptCount = store.keptCount then next else releaseRounds holdings rounds next

/-- Let go of storages until each one left is kept. Every round but the last lets go of one at
least, so there are enough rounds. -/
def release (store : Store) (holdings : Holdings) : Store :=
  releaseRounds holdings store.cells.length store

end Store

end Conform

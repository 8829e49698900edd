import Mathlib
import Conform.Proofs.Command
/-!
# Finished graphs resolve

A registry that was finished successfully has a shape for every key that references were made for,
and its finished root keeps the storage. When the graph of the root has no references to other
registries, except inside their own finished roots, no reference in it is ever left without a
shape: every evaluation that ends, ends with an outcome.
-/

namespace Conform

namespace Store

/-- A target belongs to a storage, within the graph of a finished root: it stands in the root that
was finished with the storage or in one of the entries of the storage, and what stands in a
finished root belongs to the storage of that one instead. -/
inductive Belongs (store : Store) (id : StorageId) (root : Shape) : StorageId → Target → Prop
  /-- The root itself. -/
  | root : Belongs store id root id (.shape root)
  /-- An entry of a storage that something belongs to. -/
  | entry {owner : StorageId} {target : Target} {entry : String × HeldShape}
      (known : Belongs store id root owner target) (member : entry ∈ (store.cell owner).entries) :
      Belongs store id root owner (.shape entry.2.value)
  /-- A part. -/
  | part {owner : StorageId} {whole part : Target} (known : Belongs store id root owner whole)
      (exposed : ∀ other inner, whole ≠ .shape (.finished other inner)) (has : whole.HasPart part) :
      Belongs store id root owner part
  /-- A root that was finished with another storage. -/
  | finished {owner other : StorageId} {inner : Shape}
      (known : Belongs store id root owner (.shape (.finished other inner))) :
      Belongs store id root other (.shape inner)

/-- Every reference in the graph of a finished root was made by the registry that it belongs to. -/
def SelfContained (store : Store) (id : StorageId) (root : Shape) : Prop :=
  ∀ owner reference, store.Belongs id root owner (.reference reference) →
    reference.storage = owner

/-- What a finished storage has, it has for good. -/
theorem Evolves.finished_eq {earlier later : Store} (evolves : earlier.Evolves later)
    {id : StorageId} {before after : Entries} (first : earlier.cell id = .finished before)
    (second : later.cell id = .finished after) : after = before := by
  have created : id < earlier.cells.length := lt_length_of_cell first nofun
  have cell := evolves.cell id created
  rw [first, second] at cell
  cases cell
  rfl

end Store

namespace Session

variable {session : Session}

/-- A finished root that is alive before and after commands has the same storage both times. -/
theorem Sound.finished_eq (sound : session.Sound) {id : StorageId} {root : Shape}
    (alive : session.Has (.shape (.finished id root))) {commands : List Command}
    (still : (session.after commands).Has (.shape (.finished id root))) :
    ∃ entries, session.store.cell id = .finished entries ∧
      (session.after commands).store.cell id = .finished entries := by
  obtain ⟨entries, first⟩ := (sound.admits alive).roots id root .refl
  obtain ⟨entries', second⟩ := ((sound.after commands).admits still).roots id root .refl
  obtain rfl := Store.Evolves.finished_eq (sound.evolves_after commands).store first second
  exact ⟨entries', first, second⟩

/-- What belongs to the graph of a finished root that stays alive stays alive, and the storages
that it belongs to stay as they are. -/
theorem Sound.belongs_alive (sound : session.Sound) {id : StorageId} {root : Shape}
    (alive : session.Has (.shape (.finished id root))) {commands : List Command}
    (still : (session.after commands).Has (.shape (.finished id root))) {owner : StorageId}
    {target : Target} (belongs : session.store.Belongs id root owner target) :
    session.Has target ∧ (session.after commands).Has target ∧
      ∃ entries, session.store.cell owner = .finished entries ∧
        (session.after commands).store.cell owner = .finished entries := by
  induction belongs with
  | root =>
    exact ⟨alive.contains (.single .root), still.contains (.single .root),
      sound.finished_eq alive still⟩
  | @entry owner _ entry _ member ih =>
    obtain ⟨_, _, state⟩ := ih
    obtain ⟨entries, first, second⟩ := state
    have later : entry ∈ ((session.after commands).store.cell owner).entries := by
      rw [second, ← first]
      exact member
    exact ⟨.entry member .refl, .entry later .refl, entries, first, second⟩
  | part _ _ has ih =>
    obtain ⟨before, after, state⟩ := ih
    exact ⟨before.contains (.single has), after.contains (.single has), state⟩
  | finished _ ih =>
    obtain ⟨before, after, _⟩ := ih
    exact ⟨before.contains (.single .root), after.contains (.single .root),
      sound.finished_eq before after⟩

/-- Whatever evaluation may come to in the graph of a finished root, at any time at which the root
is alive, belonged to the graph from the beginning. -/
theorem Sound.belongs_of_reaches (sound : session.Sound) {id : StorageId} {root : Shape}
    (alive : session.Has (.shape (.finished id root)))
    (own : session.store.SelfContained id root) {commands : List Command}
    (still : (session.after commands).Has (.shape (.finished id root))) {target : Target}
    (reaches : (session.after commands).store.Reaches (.shape (.finished id root)) target) :
    target = .shape (.finished id root) ∨ ∃ owner, session.store.Belongs id root owner target := by
  induction reaches with
  | refl => exact .inl rfl
  | @tail whole part _ leads ih =>
    rcases ih with rfl | ⟨owner, known⟩
    · cases leads with
      | part has =>
        cases has
        exact .inr ⟨id, .root⟩
    · cases leads with
      | part has =>
        by_cases closed : ∃ other inner, whole = .shape (.finished other inner)
        · obtain ⟨other, inner, rfl⟩ := closed
          cases has
          exact .inr ⟨other, .finished known⟩
        · have exposed other inner : whole ≠ .shape (.finished other inner) :=
            fun same => closed ⟨other, inner, same⟩
          exact .inr ⟨owner, .part known exposed has⟩
      | @entry reference shape resolved =>
        obtain rfl := own owner reference known
        obtain ⟨_, _, entries, first, second⟩ := sound.belongs_alive alive still known
        have found := (Store.resolve_eq_ok_iff _ _ _).mp resolved
        have member : (reference.key, shape) ∈ (session.store.cell reference.storage).entries := by
          rw [first]
          rw [second] at found
          exact mem_of_lookup found
        exact .inr ⟨reference.storage, .entry known member⟩

/-- In every session that commands lead to, finishing a registry successfully makes a finished
root, and whenever one is alive and its graph is self-contained, then after any commands, as long
as the root is alive, every reference in its graph stands for a shape, and for every candidate and
every bound on following references evaluation returns an outcome, unless the bound is too small. -/
theorem finished_graph_resolves (reachable : session.Reachable) :
    (∀ name plan slot, (session.run (.finish name plan (some slot))).1 = .ok .finished →
      ∃ id root, session.registries.lookup name = some id ∧
        (session.run (.finish name plan (some slot))).2.Has (.shape (.finished id root))) ∧
    ∀ id root, session.Has (.shape (.finished id root)) → session.store.SelfContained id root →
      ∀ commands, (session.after commands).Has (.shape (.finished id root)) →
        (∀ reference, (session.after commands).store.Reaches (.shape (.finished id root))
            (.reference reference) →
          ∃ shape, (session.after commands).store.resolve reference = .ok shape) ∧
        ∀ bound candidate,
          (∃ outcome, (session.after commands).store.evaluateWithin bound (.finished id root)
            candidate = .ok outcome) ∨
          (session.after commands).store.evaluateWithin bound (.finished id root) candidate =
            .error .exhausted := by
  have sound := reachable.sound
  constructor
  · intro name plan slot succeeded
    exact sound.has_of_run_finish succeeded
  · intro id root alive own commands still
    have resolves (reference : Reference)
        (reaches : (session.after commands).store.Reaches (.shape (.finished id root))
          (.reference reference)) :
        ∃ shape, (session.after commands).store.resolve reference = .ok shape := by
      rcases sound.belongs_of_reaches alive own still reaches with same | ⟨owner, known⟩
      · cases same
      · obtain rfl := own owner reference known
        obtain ⟨_, has, entries, _, finished⟩ := sound.belongs_alive alive still known
        have admits := (sound.after commands).admits has
        exact (admits.references reference .refl).resolve finished
    constructor
    · exact resolves
    · intro bound candidate
      have ends := (session.after commands).store.exhausted_of_resolves bound resolves candidate
      generalize result : (session.after commands).store.evaluateWithin bound (.finished id root)
        candidate = checked
      cases checked with
      | ok outcome => exact .inl ⟨outcome, rfl⟩
      | error cause => exact .inr (congrArg Except.error (ends cause result))

/-- The session in which the shape of trees was registered and the registry was finished with it. -/
def finishedTrees : Session :=
  trees.after [.finish "shapes" (.reference (some "shapes") "Tree") (some "tree")]

/-- What is left then is the finished storage and the finished root in its slot. -/
theorem finishedTrees_eq : finishedTrees =
    ⟨Store.ofTrees, [], [("tree", HeldShape.target (.finished 0 (.of (.tree 0))))]⟩ := by
  cbv

/-- What belongs to the graph of trees is the same three targets, and it belongs to their
storage. -/
theorem belongs_tree {owner : StorageId} {target : Target}
    (known : Store.ofTrees.Belongs 0 (.tree 0) owner target) :
    owner = 0 ∧ (target = .shape (.tree 0) ∨ target = .shape (.array (.reference ⟨0, "Tree"⟩)) ∨
      target = .reference ⟨0, "Tree"⟩) := by
  induction known with
  | root => exact ⟨rfl, .inl rfl⟩
  | entry _ member ih =>
    obtain ⟨rfl, _⟩ := ih
    obtain rfl := List.mem_singleton.mp member
    exact ⟨rfl, .inl rfl⟩
  | part _ _ has ih =>
    obtain ⟨rfl, rfl | rfl | rfl⟩ := ih
    · obtain ⟨member⟩ := has
      obtain rfl := List.mem_singleton.mp member
      exact ⟨rfl, .inr (.inl rfl)⟩
    · obtain ⟨⟩ := has
      exact ⟨rfl, .inr (.inr rfl)⟩
    · cases has
  | finished _ ih =>
    obtain ⟨_, same | same | same⟩ := ih <;> cases same

/-- The graph of trees is self-contained. -/
theorem selfContained_tree : finishedTrees.store.SelfContained 0 (.tree 0) := by
  rw [finishedTrees_eq]
  intro owner reference belongs
  obtain ⟨rfl, same | same | same⟩ := belongs_tree belongs <;> cases same
  rfl

/-- The session later, when another registry was opened under the name. -/
def reopenedTrees : Session :=
  finishedTrees.after [.dropSlot "leaf", .openRegistry "shapes"]

/-- The finished root of trees is still alive then, and no candidate leads to a reference without
a shape. -/
theorem reopened_trees_resolve :
    reopenedTrees.Has (.shape (.finished 0 (.tree 0))) ∧
      ∀ bound candidate,
        (∃ outcome, reopenedTrees.store.evaluateWithin bound (.finished 0 (.tree 0)) candidate =
          .ok outcome) ∨
        reopenedTrees.store.evaluateWithin bound (.finished 0 (.tree 0)) candidate =
          .error .exhausted := by
  have reachable : finishedTrees.Reachable := Reachable.after ⟨_, rfl⟩ _
  have alive : finishedTrees.Has (.shape (.finished 0 (.tree 0))) := by
    rw [finishedTrees_eq]
    exact .slot List.mem_cons_self .refl
  have slots : reopenedTrees.slots =
      [("tree", HeldShape.target (.finished 0 (.of (.tree 0))))] := by
    cbv
  have still : reopenedTrees.Has (.shape (.finished 0 (.tree 0))) :=
    .slot (slots ▸ List.mem_cons_self) .refl
  exact ⟨still,
    ((finished_graph_resolves reachable).2 0 (.tree 0) alive selfContained_tree _ still).2⟩

end Session

end Conform

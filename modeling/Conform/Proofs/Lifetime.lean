import Mathlib
import Conform.Proofs.Ownership
import Conform.Proofs.FinishedGraph
import Conform.Proofs.Stability
/-!
# How long storages are kept

A storage is kept for as long as its registry has a name, or a root that was finished with it is
live: it stands in a slot or in an open registry, at any depth, where what is registered in the
storage of a live finished root is live as well. Letting go of storages round by round comes to an
end only when every storage left is kept by something, and since ownership does not go around in
circles, the reason why a storage is left leads back to a name in the session.
-/

namespace Conform

open Relation

namespace Store

/-- A released storage does not count. -/
theorem keptCount_released (rest : List Cell) :
    keptCount ⟨.released :: rest⟩ = keptCount ⟨rest⟩ :=
  List.countP_cons_of_neg Bool.false_ne_true

/-- Any other storage counts. -/
theorem keptCount_present {cell : Cell} (present : cell ≠ .released) (rest : List Cell) :
    keptCount ⟨cell :: rest⟩ = keptCount ⟨rest⟩ + 1 := by
  cases cell with
  | released => exact absurd rfl present
  | opened registry => exact List.countP_cons_of_pos rfl
  | finished entries => exact List.countP_cons_of_pos rfl

/-- Letting go of some storages changes nothing, or fewer of them are left. -/
theorem eq_or_keptCount_lt {before after : List Cell}
    (lets : List.Forall₂ (fun before after => after = before ∨ after = .released) before after) :
    after = before ∨ keptCount ⟨after⟩ < keptCount ⟨before⟩ := by
  induction lets with
  | nil => exact .inl rfl
  | @cons cell last befores afters lets _ ih =>
    have fewer : keptCount ⟨afters⟩ ≤ keptCount ⟨befores⟩ := by
      rcases ih with rfl | fewer
      · exact Nat.le_refl _
      · exact Nat.le_of_lt fewer
    by_cases present : cell = .released
    · obtain rfl : last = cell := lets.elim id fun gone => gone.trans present.symm
      rw [present, keptCount_released, keptCount_released]
      exact ih.imp_left (congrArg _)
    · rw [keptCount_present present]
      rcases lets with rfl | rfl
      · rw [keptCount_present present]
        exact ih.imp (congrArg _) (Nat.add_lt_add_right · 1)
      · rw [keptCount_released]
        exact .inr (Nat.lt_succ_of_le fewer)

/-- A round of letting go changes nothing, or fewer storages are left. -/
theorem releaseOnce_eq_or_keptCount_lt (store : Store) (holdings : Holdings) :
    store.releaseOnce holdings = store ∨
      (store.releaseOnce holdings).keptCount < store.keptCount := by
  have lets : List.Forall₂ (fun before after => after = before ∨ after = .released) store.cells
      (store.releaseOnce holdings).cells := by
    apply List.forall₂_iff_get.mpr
    constructor
    · simp [releaseOnce]
    · intro position _ _
      simp only [releaseOnce, List.get_eq_getElem, List.getElem_mapIdx]
      exact keep_eq_or holdings (store.rooted holdings) position _
  exact (eq_or_keptCount_lt lets).imp_left (congrArg Store.mk)

/-- After as many rounds as storages are left, another round changes nothing. -/
theorem releaseOnce_releaseRounds (holdings : Holdings) {rounds : Nat} {store : Store}
    (enough : store.keptCount ≤ rounds) :
    (store.releaseRounds holdings rounds).releaseOnce holdings =
      store.releaseRounds holdings rounds := by
  induction rounds generalizing store with
  | zero =>
    have none : ¬ (store.releaseOnce holdings).keptCount < store.keptCount := by omega
    exact (store.releaseOnce_eq_or_keptCount_lt holdings).resolve_right none
  | succ rounds ih =>
    simp only [releaseRounds]
    rcases store.releaseOnce_eq_or_keptCount_lt holdings with same | fewer
    · rw [same, if_pos rfl]
      exact same
    · rw [if_neg (Nat.ne_of_lt fewer)]
      exact ih (Nat.le_of_lt_succ (Nat.lt_of_lt_of_le fewer enough))

end Store

namespace Session

variable {session : Session}

/-- Nothing is left in a session that is not kept. -/
def Settled (session : Session) : Prop :=
  session.store.releaseOnce session.holdings = session.store

/-- Letting go of what nothing keeps settles a session. -/
theorem settled_settle (session : Session) : session.settle.Settled :=
  Store.releaseOnce_releaseRounds session.holdings List.countP_le_length

/-- Every session that commands lead to is settled. -/
theorem Reachable.settled (reachable : session.Reachable) : session.Settled := by
  obtain ⟨commands, rfl⟩ := reachable
  rcases List.eq_nil_or_concat commands with rfl | ⟨earlier, last, rfl⟩
  · rfl
  · rw [List.concat_eq_append, Session.after, List.foldl_append]
    exact settled_settle _

/-- Every session that commands lead to has a history. -/
theorem Reachable.history (reachable : session.Reachable) :
    ∃ changes, Store.History {} changes session.store := by
  obtain ⟨commands, rfl⟩ := reachable
  exact Sound.empty.evolves_after commands

end Session

namespace Store

/-- A target holds its parts, and a finished root holds what is registered in its storage. -/
inductive HoldsNext (store : Store) : Target → Target → Prop
  /-- A part. -/
  | part {whole part : Target} (has : whole.HasPart part) : HoldsNext store whole part
  /-- An entry of the storage of a finished root. -/
  | entry {id : StorageId} {root : Shape} {entry : String × HeldShape}
      (member : entry ∈ (store.cell id).entries) :
      HoldsNext store (.shape (.finished id root)) (.shape entry.2.value)

/-- A target holds another one, over any number of steps. References hold nothing. -/
abbrev Holds (store : Store) : Target → Target → Prop := ReflTransGen store.HoldsNext

/-- A target holds what stands in it. -/
theorem holds_of_contains (store : Store) {whole part : Target} (contains : whole.Contains part) :
    store.Holds whole part :=
  ReflTransGen.mono (fun _ _ => HoldsNext.part) _ _ contains

/-- A reference holds nothing but itself. -/
theorem eq_of_holds_reference {store : Store} {reference : Reference} {target : Target}
    (holds : store.Holds (.reference reference) target) : target = .reference reference := by
  rcases ReflTransGen.cases_head holds with same | ⟨next, first, _⟩
  · exact same.symm
  · obtain ⟨⟨⟩⟩ := first

/-- Finished roots that are held lie below any layer that those in the holder lie below. -/
theorem History.layer_lt_of_holds {store : Store} {changes : List Change}
    (history : History {} changes store) {layer : StorageId → Nat} {top : Nat}
    (layered : store.Layered changes layer top) {whole : Target} {height : Nat}
    (below : ∀ id ∈ whole.roots, layer id < height) {target : Target}
    (holds : store.Holds whole target) : ∀ id ∈ target.roots, layer id < height := by
  induction holds with
  | refl => exact below
  | tail _ next ih =>
    intro id kept
    cases next with
    | part has => exact ih id ((Target.mem_roots_step _ id).mpr (.inr ⟨_, has, kept⟩))
    | @entry owner root entry member =>
      have owned : layer id < layer owner :=
        layered.indexed owner entry (history.indexed_of_mem_entries member) id kept
      have root : layer owner < height :=
        ih owner ((Target.mem_roots_step _ owner).mpr (.inl ⟨root, rfl⟩))
      exact Nat.lt_trans owned root

/-- What was registered in a storage holds no root that was finished with it. -/
theorem History.not_holds_of_indexed {store : Store} {changes : List Change}
    (history : History {} changes store) {id : StorageId} {entry : String × HeldShape}
    (member : entry ∈ Registry.indexed (callsOn id changes)) (root : Shape) :
    ¬ store.Holds (.shape entry.2.value) (.shape (.finished id root)) := by
  intro holds
  obtain ⟨layer, top, layered⟩ := history.layered
  have lower : ∀ inner ∈ Target.roots (.shape entry.2.value), layer inner < layer id :=
    layered.indexed id entry member
  have below := history.layer_lt_of_holds layered lower holds
  have own : id ∈ Target.roots (.shape (.finished id root)) :=
    (Target.mem_roots_step _ id).mpr (.inl ⟨root, rfl⟩)
  exact Nat.lt_irrefl _ (below id own)

/-- The registry of a reference is said to be dropped exactly if its storage was released. -/
theorem resolve_eq_registryDropped_iff (store : Store) (reference : Reference) :
    store.resolve reference = .error (.registryDropped reference.key) ↔
      store.cell reference.storage = .released := by
  unfold resolve
  cases store.cell reference.storage with
  | released => simp
  | opened registry =>
    cases found : registry.entries.lookup reference.key <;> simp [Cell.entries, found]
  | finished entries =>
    cases found : entries.lookup reference.key <;> simp [Cell.entries, found]

end Store

namespace Session

variable {session : Session}

/-- A target is live: something in a slot or in an open registry holds it. -/
inductive Live (session : Session) (target : Target) : Prop
  /-- Something in a slot holds it. -/
  | slot {entry : String × HeldTarget} (member : entry ∈ session.slots)
      (holds : session.store.Holds entry.2.value target)
  /-- Something in an open registry holds it. -/
  | registry {named : String × StorageId} {entry : String × HeldShape}
      (listed : named ∈ session.registries)
      (member : entry ∈ (session.store.cell named.2).entries)
      (holds : session.store.Holds (.shape entry.2.value) target)

/-- Whatever something live holds is live. -/
theorem Live.holds {whole target : Target} (live : session.Live whole)
    (holds : session.store.Holds whole target) : session.Live target := by
  cases live with
  | slot member before => exact .slot member (before.trans holds)
  | registry listed member before => exact .registry listed member (before.trans holds)

/-- What is held by something that has its place in a session has its place there too. -/
theorem Has.holds {whole target : Target} (has : session.Has whole)
    (holds : session.store.Holds whole target) : session.Has target := by
  induction holds with
  | refl => exact has
  | tail _ next ih =>
    cases next with
    | part inside => exact ih.contains (.single inside)
    | entry member => exact .entry member .refl

/-- What is live has its place in the session. -/
theorem Live.has {target : Target} (live : session.Live target) : session.Has target := by
  cases live with
  | slot member holds => exact Has.holds (.slot member .refl) holds
  | registry _ member holds => exact Has.holds (.entry member .refl) holds

/-- In a settled session, a storage that is left is open and has a name, or it is kept by
something in a slot or by another storage. -/
theorem Settled.kept (settled : session.Settled) {id : StorageId}
    (present : session.store.cell id ≠ .released) :
    id ∈ session.registries.map Prod.snd ∨ (∃ root, session.Live (.shape (.finished id root))) ∨
      ∃ owner, session.store.Owns owner id := by
  have stays : session.store.cell id =
      Store.keep session.holdings (session.store.rooted session.holdings) id
        (session.store.cell id) := by
    rw [← Store.cell_releaseOnce, settled]
  cases state : session.store.cell id with
  | released => exact absurd state present
  | opened registry =>
    left
    by_contra unnamed
    have held : id ∉ session.holdings.registries := unnamed
    rw [state, Store.keep, if_neg held] at stays
    cases stays
  | finished entries =>
    right
    have rooted : id ∈ session.store.rooted session.holdings := by
      by_contra unrooted
      rw [state, Store.keep, if_neg unrooted] at stays
      cases stays
    rcases List.mem_append.mp rooted with held | owned
    · left
      obtain ⟨target, listed, keeps⟩ := List.mem_flatMap.mp held
      obtain ⟨entry, member, rfl⟩ := List.mem_map.mp listed
      obtain ⟨root, contains⟩ :=
        (Target.mem_roots_iff _ id).mp ((entry.2.mem_keeps id).mp keeps)
      exact ⟨root, .slot member (session.store.holds_of_contains contains)⟩
    · right
      obtain ⟨cell, listed, keeps⟩ := List.mem_flatMap.mp owned
      obtain ⟨owner, created, rfl⟩ := List.mem_iff_getElem.mp listed
      have same : session.store.cell owner = session.store.cells[owner] := by
        simp [Store.cell, created]
      exact ⟨owner, (session.store.mem_keeps_iff_owns owner id).mp (same ▸ keeps)⟩

/-- Where no registry is open, and nothing but references is in slots, no finished root is live. -/
theorem not_live_of_references (closed : session.registries = [])
    (bare : ∀ entry ∈ session.slots, ∃ reference, entry.2.value = .reference reference)
    {id : StorageId} {root : Shape} : ¬ session.Live (.shape (.finished id root)) := by
  rintro (⟨member, holds⟩ | ⟨listed, _, _⟩)
  · obtain ⟨reference, same⟩ := bare _ member
    rw [same] at holds
    cases Store.eq_of_holds_reference holds
  · rw [closed] at listed
    cases listed

/-- What is owned by a named or live storage is live. -/
theorem live_of_owns {owner owned : StorageId} (owns : session.store.Owns owner owned)
    (kept : owner ∈ session.registries.map Prod.snd ∨
      ∃ root, session.Live (.shape (.finished owner root))) :
    ∃ root, session.Live (.shape (.finished owned root)) := by
  obtain ⟨entry, member, root, contains⟩ := owns
  have inside := session.store.holds_of_contains contains
  rcases kept with named | ⟨outer, live⟩
  · obtain ⟨named, listed, rfl⟩ := List.mem_map.mp named
    exact ⟨root, .registry listed member inside⟩
  · exact ⟨root, live.holds (.head (.entry member) inside)⟩

/-- In a settled session, a storage that is left has a name, or a root that was finished with it is
live: going up from it to what owns it leads to such a storage, since there is no circle. -/
theorem Settled.named_or_live (settled : session.Settled)
    (noCircle : WellFounded session.store.Owns) {id : StorageId}
    (present : session.store.cell id ≠ .released) :
    id ∈ session.registries.map Prod.snd ∨
      ∃ root, session.Live (.shape (.finished id root)) := by
  induction id using noCircle.induction with
  | _ id ih =>
    rcases settled.kept present with named | live | ⟨owner, owns⟩
    · exact .inl named
    · exact .inr live
    · right
      apply live_of_owns owns
      apply ih owner owns
      intro released
      obtain ⟨entry, member, _⟩ := owns
      rw [released] at member
      cases member

/-- In every session that commands lead to, a storage is released exactly if its registry has no
name and no root that was finished with it is live. -/
theorem Reachable.released_iff (reachable : session.Reachable) (id : StorageId) :
    session.store.cell id = .released ↔ id ∉ session.registries.map Prod.snd ∧
      ∀ root, ¬ session.Live (.shape (.finished id root)) := by
  constructor
  · intro released
    have lost : ¬ session.Keeps id := fun kept => reachable.sound.present kept released
    exact ⟨fun named => lost (.inl named), fun root live => lost (.inr ⟨root, live.has⟩)⟩
  · rintro ⟨unnamed, dead⟩
    obtain ⟨changes, history⟩ := reachable.history
    by_contra present
    rcases reachable.settled.named_or_live history.wellFounded_owners present with
      named | ⟨root, live⟩
    · exact unnamed named
    · exact dead root live

/-- The storage of the registry that a command finishes, if it finishes one. -/
def finishes? (session : Session) : Command → Option StorageId
  | .create .. => some session.store.next
  | .finish registry .. => session.registries.lookup registry
  | _ => none

/-- When finishing a registry is refused, its storage is lost. -/
theorem Sound.lost_of_run_refused (sound : session.Sound) {command : Command} {id : StorageId}
    (finishes : session.finishes? command = some id) {error : RegistryError}
    (refused : (session.run command).1 = .ok (.refused error)) :
    (session.run command).2.store.Lost id := by
  have lost : (command.perform.run session).2.store.Lost id := by
    cases command with
    | create definitions root queries slot =>
      obtain rfl := Option.some.inj finishes
      exact (Command.perform_create definitions root queries slot sound).returns _ refused error rfl
    | finish registry plan slot =>
      have performed := Command.perform_finish registry plan slot sound
      obtain ⟨other, named, lost⟩ := (performed.returns _ refused).2 error rfl
      obtain rfl := Option.some.inj (named.symm.trans finishes)
      exact lost
    | _ => cases finishes
  exact lost.evolves (Store.evolves_releaseRounds _ _ _)

/-- In every session that commands lead to, a reference is answered by the lifetime of its storage.
The registry is said to be dropped exactly if it has no name any more and no root that was finished
with it is live; otherwise the answer is what was registered first under the key, or that the key
is missing. References hold no finished root at all, and what was registered in a storage, or was
found there at some time, never holds a root that was finished with it, so none of them keeps the
storage. When finishing a registry is refused, it is said to be dropped from then on. -/
theorem resolve_by_lifetime (reachable : session.Reachable) :
    (∃ changes, Store.History {} changes session.store) ∧
    (∀ changes, Store.History {} changes session.store →
      (∀ reference : Reference,
        (session.store.resolve reference = .error (.registryDropped reference.key) ↔
          reference.storage ∉ session.registries.map Prod.snd ∧
            ∀ root, ¬ session.Live (.shape (.finished reference.storage root))) ∧
        (session.store.resolve reference ≠ .error (.registryDropped reference.key) →
          session.store.resolve reference =
            match Store.firstIndexed changes reference with
            | some shape => .ok shape
            | none => .error (.unresolvedKey reference.key))) ∧
      ∀ id root,
        (∀ reference,
          ¬ session.store.Holds (.reference reference) (.shape (.finished id root))) ∧
        ∀ entry ∈ Registry.indexed (Store.callsOn id changes),
          ¬ session.store.Holds (.shape entry.2.value) (.shape (.finished id root))) ∧
    (∀ reference shape, session.store.resolve reference = .ok shape → ∀ commands root,
      ¬ (session.after commands).store.Holds (.shape shape.value)
        (.shape (.finished reference.storage root))) ∧
    ∀ command id error, session.finishes? command = some id →
      (session.run command).1 = .ok (.refused error) → ∀ commands key,
        ((session.run command).2.after commands).store.resolve ⟨id, key⟩ =
          .error (.registryDropped key) := by
  refine ⟨reachable.history, ?_, ?_, ?_⟩
  · intro changes history
    constructor
    · intro reference
      have dropped := session.store.resolve_eq_registryDropped_iff reference
      refine ⟨dropped.trans (reachable.released_iff reference.storage), ?_⟩
      intro answered
      exact history.resolve_eq fun released => answered (dropped.mpr released)
    · intro id root
      constructor
      · intro reference holds
        cases Store.eq_of_holds_reference holds
      · intro entry member
        exact history.not_holds_of_indexed member root
  · intro reference shape resolved commands root
    obtain ⟨changes, history⟩ := reachable.history
    obtain ⟨further, onward⟩ := reachable.sound.evolves_after commands
    have found := (Store.resolve_eq_ok_iff _ _ _).mp resolved
    have registered := history.indexed_of_mem_entries (mem_of_lookup found)
    have still := Store.mem_indexed_append further registered
    exact (history.trans onward).not_holds_of_indexed still root
  · intro command id error finishes refused commands key
    have sound := reachable.sound
    have lost := sound.lost_of_run_refused finishes refused
    have still := lost.evolves ((sound.run command).evolves_after commands).store
    exact (Store.resolve_eq_registryDropped_iff _ ⟨id, key⟩).mpr still.released

/-- The shape of forests: arrays of what the finished root of trees takes. -/
def forest : HeldShape := .array (HeldShape.target (.finished 0 (.of (.tree 0))))

/-- A session in which the forests were registered in an open registry and put into a slot, and a
reference to a key that is missing there was made. -/
def forests : Session :=
  finishedTrees.after [.openRegistry "forests",
    .index "forests" "Forest" (.array (.slot "tree")) (some "forest"), .dropSlot "tree",
    .refer "forests" "Missing" (some "missing")]

/-- The forests are in the storage after the one of the trees. -/
theorem forests_eq : forests =
    ⟨⟨[.finished [("Tree", .of (.tree 0))],
      .opened { entries := [("Forest", forest)], referenced := ["Missing"] }]⟩,
    [("forests", 1)],
    [("missing", .of (.reference ⟨1, "Missing"⟩)), ("forest", forest.target)]⟩ := by
  cbv

/-- Commands lead to the forests. -/
theorem reachable_forests : forests.Reachable :=
  Reachable.after (Reachable.after ⟨_, rfl⟩ _) _

/-- The session after finishing the forests was refused. -/
def refusedForests : Session :=
  ⟨⟨[.finished [("Tree", .of (.tree 0))], .released]⟩, [],
    [("missing", .of (.reference ⟨1, "Missing"⟩)), ("forest", forest.target)]⟩

/-- Finishing the forests is refused since a key is missing. -/
theorem run_finish_forests : forests.run (.finish "forests" (.slot "forest") none) =
    (.ok (.refused (.unresolvedKeys ["Missing"])), refusedForests) := by
  rw [forests_eq]
  cbv

/-- Commands lead to the session after finishing the forests was refused. -/
theorem reachable_refusedForests : refusedForests.Reachable := by
  have reachable := reachable_forests.run (.finish "forests" (.slot "forest") none)
  rwa [run_finish_forests] at reachable

/-- From the time at which finishing the forests was refused nothing is found there, but trees are
found until the slot with the forest is emptied: the slot with the reference keeps nothing. -/
theorem resolve_in_refusedForests :
    (∀ commands key, (refusedForests.after commands).store.resolve ⟨1, key⟩ =
        .error (.registryDropped key)) ∧
      refusedForests.store.resolve ⟨0, "Tree"⟩ ≠ .error (.registryDropped "Tree") ∧
      (refusedForests.run (.dropSlot "forest")).2.store.resolve ⟨0, "Tree"⟩ =
        .error (.registryDropped "Tree") := by
  refine ⟨?_, ?_, ?_⟩
  · have named : forests.finishes? (.finish "forests" (.slot "forest") none) = some 1 := by
      rw [forests_eq]
      rfl
    have refused := (resolve_by_lifetime reachable_forests).2.2.2 _ 1 (.unresolvedKeys ["Missing"])
      named
    rw [run_finish_forests] at refused
    exact refused rfl
  · obtain ⟨⟨changes, history⟩, lifetime, _⟩ := resolve_by_lifetime reachable_refusedForests
    intro dropped
    have dead := (((lifetime changes history).1 ⟨0, "Tree"⟩).1.mp dropped).2 (.tree 0)
    have member : ("forest", forest.target) ∈ refusedForests.slots := by simp [refusedForests]
    exact dead (.slot member (.single (.part .item)))
  · have reachable := reachable_refusedForests.run (.dropSlot "forest")
    obtain ⟨⟨changes, history⟩, lifetime, _⟩ := resolve_by_lifetime reachable
    have registries : (refusedForests.run (.dropSlot "forest")).2.registries = [] := by cbv
    have slots : (refusedForests.run (.dropSlot "forest")).2.slots =
      [("missing", .of (.reference ⟨1, "Missing"⟩))] := by cbv
    apply ((lifetime changes history).1 ⟨0, "Tree"⟩).1.mpr
    constructor
    · rw [registries]
      exact List.not_mem_nil
    · intro root
      apply not_live_of_references registries
      intro entry member
      rw [slots] at member
      obtain rfl := List.mem_singleton.mp member
      exact ⟨_, rfl⟩

/-- In every session that commands lead to, ownership of storages is well-founded: no storage owns
itself, directly or through others, and what no name in the session leads to is released. -/
theorem ownership_wellFounded (reachable : session.Reachable) :
    WellFounded (fun owned owner => session.store.Owns owner owned) ∧
      (∀ id, ¬ TransGen session.store.Owns id id) ∧
      ∀ id, id ∉ session.registries.map Prod.snd →
        (∀ root, ¬ session.Live (.shape (.finished id root))) →
        session.store.cell id = .released := by
  obtain ⟨changes, history⟩ := reachable.history
  refine ⟨history.wellFounded_owned, ?_, ?_⟩
  · intro id circle
    exact history.wellFounded_owners.transGen.irrefl.irrefl id circle
  · intro id unnamed dead
    exact (reachable.released_iff id).mpr ⟨unnamed, dead⟩

/-- The forests own the trees, and no storage owns itself. Once the forests have no name any more,
both are released. -/
theorem forests_own_trees :
    forests.store.Owns 1 0 ∧ (∀ id, ¬ TransGen forests.store.Owns id id) ∧
      let dropped := forests.after [.dropRegistry "forests", .dropSlot "forest"]
      dropped.store.cell 0 = .released ∧ dropped.store.cell 1 = .released := by
  have owns : forests.store.Owns 1 0 := by
    rw [forests_eq]
    exact ⟨("Forest", forest), List.mem_cons_self, .tree 0, .single .item⟩
  refine ⟨owns, (ownership_wellFounded reachable_forests).2.1, ?_⟩
  intro dropped
  have reachable : dropped.Reachable := reachable_forests.after _
  have registries : dropped.registries = [] := by
    unfold dropped
    rw [forests_eq]
    cbv
  have slots : dropped.slots = [("missing", .of (.reference ⟨1, "Missing"⟩))] := by
    unfold dropped
    rw [forests_eq]
    cbv
  have unnamed (id : StorageId) : id ∉ dropped.registries.map Prod.snd := by
    rw [registries]
    exact List.not_mem_nil
  have dead (id : StorageId) (root : Shape) : ¬ dropped.Live (.shape (.finished id root)) := by
    apply not_live_of_references registries
    intro entry member
    rw [slots] at member
    obtain rfl := List.mem_singleton.mp member
    exact ⟨_, rfl⟩
  have released := (ownership_wellFounded reachable).2.2
  exact ⟨released 0 (unnamed 0) (dead 0), released 1 (unnamed 1) (dead 1)⟩

end Session

end Conform

import Conform.Proofs.History
import Conform.Proofs.Simulation
/-!
# References are transparent

A reference to a key of a finished registry and the shape that was registered under the key are as
good as each other. So a graph in which shapes were put in the places of references, at any number
of places, in the root and in what is registered, yields what the original graph yields. The two
graphs run through their cycles in different steps, but putting shapes in the places of references
is a simulation, and so is going back.
-/

namespace Conform

open List (Forall₂)

/-- A target with shapes in the places of some of its references. Each is one that the reference
stands for originally, with shapes in the places of its own references maybe. -/
inductive Target.Inlines (originals : Reference → Shape → Prop) : Target → Target → Prop
  /-- A reference that stays. -/
  | kept {reference : Reference} : Inlines originals (.reference reference) (.reference reference)
  /-- A reference with a shape in its place. -/
  | replaced {reference : Reference} {original shape : Shape}
      (stands : originals reference original)
      (inlines : Inlines originals (.shape original) (.shape shape)) :
      Inlines originals (.reference reference) (.shape shape)
  /-- A shape with the same in its parts. -/
  | shape {shape shape' : Shape} (alike : shape.Alike (Inlines originals) shape') :
      Inlines originals (.shape shape) (.shape shape')

/-- A shape that is held, with shapes in the places of references. -/
def HeldShape.Inlines (originals : Reference → Shape → Prop) (shape shape' : HeldShape) : Prop :=
  (Target.shape shape.value).Inlines originals (.shape shape'.value)

variable {originals : Reference → Shape → Prop}

/-- All references may stay. -/
theorem Target.Inlines.refl (target : Target) : target.Inlines originals target := by
  induction target using Target.inductionOnParts with
  | step whole ih =>
    match whole with
    | .reference _ => exact .kept
    | .shape _ => exact .shape (.of_parts ih)

namespace Entries

/-- Entries under the same keys, whose shapes are related. -/
def Alike (Related : HeldShape → HeldShape → Prop) : Entries → Entries → Prop :=
  Forall₂ fun entry entry' => entry.1 = entry'.1 ∧ Related entry.2 entry'.2

variable {Related : HeldShape → HeldShape → Prop} {entries entries' : Entries}

/-- Being alike reads the same from the other side. -/
theorem Alike.flip (alike : entries.Alike Related entries') :
    entries'.Alike (flip Related) entries :=
  List.Forall₂.flip (alike.imp fun _ _ here => ⟨here.1.symm, here.2⟩)

/-- What is found under a key is related to what is found in the other entries. -/
theorem Alike.exists_lookup (alike : entries.Alike Related entries') {key : String}
    {shape : HeldShape} (found : entries.lookup key = some shape) :
    ∃ shape', entries'.lookup key = some shape' ∧ Related shape shape' := by
  induction alike with
  | nil => cases found
  | @cons entry entry' _ _ here _ ih =>
    obtain ⟨same, related⟩ := here
    rw [List.lookup_cons, same] at found
    rw [List.lookup_cons]
    cases matched : key == entry'.1 with
    | true =>
      rw [matched] at found
      obtain rfl := Option.some.inj found
      exact ⟨_, rfl, related⟩
    | false =>
      rw [matched] at found
      exact ih found

end Entries

namespace Store

/-- A target stands for one shape at most. -/
theorem StandsFor.unique {store : Store} {target : Target} {shape other : Shape}
    (stands : store.StandsFor target shape) (others : store.StandsFor target other) :
    other = shape := by
  cases stands with
  | shape =>
    cases others
    rfl
  | reference resolved =>
    cases others with
    | reference found =>
      obtain rfl := Except.ok.inj (resolved.symm.trans found)
      rfl

/-- One store has the entries of another one, with shapes in the places of references that stand
for them. -/
structure Inlines (originals : Reference → Shape → Prop) (first second : Store) : Prop where
  /-- The shapes are those that references stand for. -/
  stands : ∀ {reference : Reference} {shape : Shape}, originals reference shape →
    first.StandsFor (.reference reference) shape
  /-- The entries of every storage are the same otherwise. -/
  entries : ∀ id, (first.cell id).entries.Alike (HeldShape.Inlines originals)
    (second.cell id).entries

variable {first second : Store}

/-- Putting shapes in the places of references is a simulation. -/
theorem Inlines.forth (inlines : first.Inlines originals second) :
    Simulation first second (Target.Inlines originals) := by
  constructor
  · intro target target' shape related stands
    cases related with
    | kept =>
      cases stands with
      | reference resolved =>
        have found := (first.resolve_eq_ok_iff _ _).mp resolved
        obtain ⟨_, found', related⟩ := (inlines.entries _).exists_lookup found
        exact ⟨_, .reference ((second.resolve_eq_ok_iff _ _).mpr found'), related⟩
    | replaced original related =>
      obtain rfl := (inlines.stands original).unique stands
      exact ⟨_, .shape, related⟩
    | shape alike =>
      cases stands
      exact ⟨_, .shape, .shape alike⟩
  · rintro shape shape' ⟨⟩
    assumption

/-- Going back to the references is a simulation. -/
theorem Inlines.back (inlines : first.Inlines originals second) :
    Simulation second first (flip (Target.Inlines originals)) := by
  constructor
  · intro target' target shape' related stands
    cases related with
    | kept =>
      cases stands with
      | reference resolved =>
        have found := (second.resolve_eq_ok_iff _ _).mp resolved
        obtain ⟨_, found', related⟩ := (inlines.entries _).flip.exists_lookup found
        exact ⟨_, .reference ((first.resolve_eq_ok_iff _ _).mpr found'), related⟩
    | replaced original related =>
      cases stands
      exact ⟨_, inlines.stands original, related⟩
    | shape alike =>
      cases stands
      exact ⟨_, .shape, .shape alike⟩
  · rintro shape' shape ⟨⟩
    rename_i alike
    exact alike.flip

end Store

namespace Registry

/-- A shape was registered under the key of a reference to a storage. -/
def Original (id : StorageId) (calls : List Call) (reference : Reference) (shape : Shape) : Prop :=
  reference.storage = id ∧ ∃ held, (reference.key, held) ∈ indexed calls ∧ held.value = shape

/-- Entries that are alike are registered under the same keys. -/
theorem indexedKeys_eq_of_alike {Related : HeldShape → HeldShape → Prop} {calls calls' : List Call}
    (alike : Entries.Alike Related (indexed calls) (indexed calls')) :
    indexedKeys calls' = indexedKeys calls := by
  symm
  rw [indexedKeys, indexedKeys, ← List.forall₂_eq_eq_eq, List.forall₂_map_left_iff,
    List.forall₂_map_right_iff]
  exact alike.imp fun _ _ here => here.1

end Registry

namespace Store

open Registry

/-- A reference stands for what was registered under its key, if no key was registered twice. -/
theorem resolve_of_registered {store : Store} {id : StorageId} {calls : List Call}
    (entries : (store.cell id).entries = indexed calls) (distinct : (indexedKeys calls).Nodup)
    {key : String} {shape : HeldShape} (member : (key, shape) ∈ indexed calls) :
    store.resolve ⟨id, key⟩ = .ok shape := by
  rw [resolve_eq_ok_iff, entries]
  exact (lookup_eq_some_iff_mem distinct).mpr member

/-- Finishing a registry in which no key was registered twice changes nothing about what references
are resolved to. -/
theorem resolve_setCell_finished {store : Store} {id : StorageId} {calls : List Call}
    (opened : store.cell id = .opened (ofCalls calls)) (distinct : (indexedKeys calls).Nodup)
    (reference : Reference) :
    (store.setCell id (.finished (indexed calls))).resolve reference = store.resolve reference := by
  have created := lt_length_of_cell opened nofun
  by_cases same : id = reference.storage
  · subst same
    simp only [resolve, cell_setCell_same _ _ _ created, opened, Cell.entries,
      entries_ofCalls distinct]
  · simp only [resolve, cell_setCell_other _ _ _ _ same]

/-- Where shapes are put in the places of references before a registry is finished, they are in
these places afterwards. -/
theorem inlines_of_finished {first second : Store} {id : StorageId} {calls calls' : List Call}
    (opened : first.cell id = .opened (ofCalls calls))
    (opened' : second.cell id = .opened (ofCalls calls')) (distinct : (indexedKeys calls).Nodup)
    (inlined : Entries.Alike (HeldShape.Inlines (Original id calls)) (indexed calls)
      (indexed calls'))
    (elsewhere : ∀ other, other ≠ id → (first.cell other).entries.Alike
      (HeldShape.Inlines (Original id calls)) (second.cell other).entries) :
    Inlines (Original id calls) (first.setCell id (.finished (indexed calls)))
      (second.setCell id (.finished (indexed calls'))) := by
  have closed := cell_setCell_same first id (.finished (indexed calls))
    (lt_length_of_cell opened nofun)
  have closed' := cell_setCell_same second id (.finished (indexed calls'))
    (lt_length_of_cell opened' nofun)
  constructor
  · rintro ⟨_, key⟩ _ ⟨rfl, shape, member, rfl⟩
    exact .reference (resolve_of_registered (congrArg Cell.entries closed) distinct member)
  · intro other
    by_cases here : id = other
    · subst here
      rw [closed, closed']
      exact inlined
    · rw [cell_setCell_other _ _ _ _ here, cell_setCell_other _ _ _ _ here]
      exact elsewhere other (Ne.symm here)

/-- References to a registry that is finished and the shapes that were registered there are as good
as each other. Had shapes been put in the places of such references, in the root, in what was
registered and in what other storages have, the registry would have been finished as well, and
with the same outcomes. The finished root evaluates like the root itself, before and after; and a
reference stands for the very shape that was registered under its key, ever since it was. -/
theorem references_are_transparent {first second later : Store} {id : StorageId}
    {calls calls' : List Call} {root root' finished : HeldShape}
    (opened : first.cell id = .opened (ofCalls calls))
    (opened' : second.cell id = .opened (ofCalls calls'))
    (accepted : first.finish? id root = some (.ok finished, later))
    (inlinedRoot : root.Inlines (Original id calls) root')
    (inlined : Entries.Alike (HeldShape.Inlines (Original id calls)) (indexed calls)
      (indexed calls'))
    (elsewhere : ∀ other, other ≠ id → (first.cell other).entries.Alike
      (HeldShape.Inlines (Original id calls)) (second.cell other).entries)
    (referred : ∀ key ∈ referredKeys calls', key ∈ referredKeys calls) :
    (∃ finished' later', second.finish? id root' = some (.ok finished', later') ∧
      ∀ candidate outcome, later.evaluate finished.value candidate = .ok outcome ↔
        later'.evaluate finished'.value candidate = .ok outcome) ∧
    (∀ candidate, later.evaluate finished.value candidate = first.evaluate root.value candidate ∧
      later.evaluate finished.value candidate = later.evaluate root.value candidate) ∧
    ∀ key shape, (key, shape) ∈ indexed calls → later.resolve ⟨id, key⟩ = .ok shape ∧
      ∀ (count : Nat) (store : Store), store.cell id = .opened (ofCalls (calls.take count)) →
        (key, shape) ∈ indexed (calls.take count) → store.resolve ⟨id, key⟩ = .ok shape := by
  obtain ⟨distinct, complete, rfl, rfl⟩ := (finish?_eq_ok_iff opened).mp accepted
  have keys := indexedKeys_eq_of_alike inlined
  have inlines := inlines_of_finished opened opened' distinct inlined elsewhere
  refine ⟨⟨.finished id root', second.setCell id (.finished (indexed calls')), ?_, ?_⟩, ?_, ?_⟩
  · refine (finish?_eq_ok_iff opened').mpr ⟨keys ▸ distinct, ?_, rfl, rfl⟩
    intro key listed
    rw [keys]
    exact complete key (referred key listed)
  · intro candidate outcome
    exact evaluate_eq_ok_iff_of_simulations inlines.forth inlines.back
      (.shape (.finished inlinedRoot))
  · intro candidate
    exact ⟨evaluate_congr (resolve_setCell_finished opened distinct) root.value candidate, rfl⟩
  · intro key shape member
    have closed := cell_setCell_same first id (.finished (indexed calls))
      (lt_length_of_cell opened nofun)
    refine ⟨resolve_of_registered (congrArg Cell.entries closed) distinct member, ?_⟩
    intro count store still listed
    have earlier : (indexedKeys (calls.take count)).Sublist (indexedKeys calls) :=
      ((List.take_sublist count calls).filterMap _).map _
    have distinct := distinct.sublist earlier
    have entries := (congrArg Cell.entries still).trans (entries_ofCalls distinct)
    exact resolve_of_registered entries distinct listed

end Store

/-- The shape of trees with itself in the place of its reference. -/
def Shape.unrolledTree (id : StorageId) : Shape :=
  .object [.field "children" (.shape (.array (.shape (.tree id))))]

namespace Store

open Registry

/-- The registry of the shape of trees is finished, and gives the outcomes of trees, also if the
shape is unrolled before. -/
theorem unrolled_trees_are_transparent :
    let original : List Call := [.refer "Tree", .index "Tree" (.of (.tree 0))]
    let unrolled : List Call := [.refer "Tree", .index "Tree" (.of (.unrolledTree 0))]
    let first : Store := ⟨[.opened (ofCalls original)]⟩
    let second : Store := ⟨[.opened (ofCalls unrolled)]⟩
    let candidate : Json := .object [("children", .array [.object [("children", .null)]])]
    let outcome : Outcome := .inProperties [("children",
      .inItems [(0, .inProperties [("children", .wrongKind .array .null)])])]
    ∃ finished later finished' later',
      first.finish? 0 (.of (.tree 0)) = some (.ok finished, later) ∧
      later.evaluate finished.value candidate = .ok outcome ∧
      second.finish? 0 (.of (.unrolledTree 0)) = some (.ok finished', later') ∧
      later'.evaluate finished'.value candidate = .ok outcome := by
  intro original unrolled first second candidate outcome
  have inlined : HeldShape.Inlines (Original 0 original) (.of (.tree 0))
      (.of (.unrolledTree 0)) := by
    have stands : Original 0 original ⟨0, "Tree"⟩ (.tree 0) :=
      ⟨rfl, .of (.tree 0), List.mem_singleton_self _, rfl⟩
    have children := Target.Inlines.replaced stands (.refl _)
    exact .shape (.object (.cons (.mk (.shape (.array children))) .nil))
  have elsewhere (other : StorageId) (different : other ≠ 0) : (first.cell other).entries.Alike
      (HeldShape.Inlines (Original 0 original)) (second.cell other).entries := by
    cases other with
    | zero => exact absurd rfl different
    | succ _ => exact .nil
  have accepted : first.finish? 0 (.of (.tree 0)) = some (.ok (.finished 0 (.of (.tree 0))),
      first.setCell 0 (.finished (indexed original))) :=
    (finish?_eq_ok_iff rfl).mpr ⟨by decide, by decide, rfl, rfl⟩
  have opened : first.cell 0 = .opened (ofCalls original) := rfl
  have opened' : second.cell 0 = .opened (ofCalls unrolled) := rfl
  have registered : Entries.Alike (HeldShape.Inlines (Original 0 original)) (indexed original)
      (indexed unrolled) := .cons ⟨rfl, inlined⟩ .nil
  have referred : ∀ key ∈ referredKeys unrolled, key ∈ referredKeys original := fun _ => id
  obtain ⟨⟨finished, later, accepted', alike⟩, _⟩ :=
    references_are_transparent opened opened' accepted inlined registered elsewhere referred
  exact ⟨_, _, finished, later, accepted, rfl, accepted', (alike candidate outcome).mp rfl⟩

end Store

end Conform

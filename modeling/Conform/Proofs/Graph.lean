import Mathlib.Logic.Relation
import Conform.Store.Basic
/-!
# Graphs of shapes

The parts of a shape are finite trees, and references tie them into graphs that may be cyclic. Two
relations say what belongs together: `Target.Contains` goes from a whole to its parts at any depth
and stops at references, `Store.Reaches` follows references as well. Both are iterations of one
step, so a fact about single steps carries over by induction.
-/

namespace Conform

open Relation

/-- The immediate parts of a target. -/
inductive Target.HasPart : Target → Target → Prop
  /-- What a property has to be. -/
  | property {properties : List Property} {property : Property} (member : property ∈ properties) :
      HasPart (.shape (.object properties)) property.target
  /-- What an item has to be. -/
  | item {item : Target} : HasPart (.shape (.array item)) item
  /-- An alternative. -/
  | alternative {first alternative : Target} {rest : List Target}
      (member : alternative ∈ first :: rest) : HasPart (.shape (.union first rest)) alternative
  /-- The shape inside another one. -/
  | inner {inner : Shape} : HasPart (.shape (.wrapped inner)) (.shape inner)
  /-- The root of a finished registry. -/
  | root {storage : StorageId} {root : Shape} :
      HasPart (.shape (.finished storage root)) (.shape root)

/-- Parts are smaller than the whole. -/
theorem Target.HasPart.sizeOf_lt {whole part : Target} (has : whole.HasPart part) :
    sizeOf part < sizeOf whole := by
  cases has with
  | @property properties property member =>
    have listed := List.sizeOf_lt_of_mem member
    have inside : sizeOf property.target < sizeOf property := by
      cases property
      simp only [Property.mk.sizeOf_spec]
      omega
    simp only [Target.shape.sizeOf_spec, Shape.object.sizeOf_spec]
    omega
  | item =>
    simp only [Target.shape.sizeOf_spec, Shape.array.sizeOf_spec]
    omega
  | alternative member =>
    have listed := List.sizeOf_lt_of_mem member
    simp only [List.cons.sizeOf_spec] at listed
    simp only [Target.shape.sizeOf_spec, Shape.union.sizeOf_spec]
    omega
  | inner =>
    simp only [Target.shape.sizeOf_spec, Shape.wrapped.sizeOf_spec]
    omega
  | root =>
    simp only [Target.shape.sizeOf_spec, Shape.finished.sizeOf_spec]
    omega

/-- What holds of a target whenever it holds of its parts holds of every target. -/
theorem Target.inductionOnParts {motive : Target → Prop}
    (step : ∀ whole, (∀ part, whole.HasPart part → motive part) → motive whole)
    (target : Target) : motive target :=
  step target fun part _ => Target.inductionOnParts step part
termination_by sizeOf target
decreasing_by exact Target.HasPart.sizeOf_lt ‹_›

/-- A target stands in another one, at any depth. -/
abbrev Target.Contains : Target → Target → Prop := ReflTransGen Target.HasPart

/-- The finished roots in targets are those in each of them. -/
theorem Target.mem_allRoots_iff (targets : List Target) (id : StorageId) :
    id ∈ Target.allRoots targets ↔ ∃ target ∈ targets, id ∈ target.roots := by
  induction targets with
  | nil => simp [Target.allRoots]
  | cons target rest ih => simp [Target.allRoots, ih]

/-- The finished roots in properties are those in each of them. -/
theorem Property.mem_allRoots_iff (properties : List Property) (id : StorageId) :
    id ∈ Property.allRoots properties ↔ ∃ property ∈ properties, id ∈ property.target.roots := by
  induction properties with
  | nil => simp [Property.allRoots]
  | cons property rest ih =>
    cases property
    simp [Property.allRoots, ih]

/-- The finished roots in a target are the target itself, if it is one, and those in its parts. -/
theorem Target.mem_roots_step (target : Target) (id : StorageId) :
    id ∈ target.roots ↔ (∃ root, target = .shape (.finished id root)) ∨
      ∃ part, target.HasPart part ∧ id ∈ part.roots := by
  constructor
  · intro kept
    match target with
    | .reference _ => simp [Target.roots] at kept
    | .shape (.kind _) => simp [Target.roots, Shape.roots] at kept
    | .shape (.literal _) => simp [Target.roots, Shape.roots] at kept
    | .shape (.custom _) => simp [Target.roots, Shape.roots] at kept
    | .shape (.object properties) =>
      obtain ⟨property, member, inside⟩ := (Property.mem_allRoots_iff properties id).mp kept
      exact .inr ⟨property.target, .property member, inside⟩
    | .shape (.array item) => exact .inr ⟨item, .item, kept⟩
    | .shape (.union first rest) =>
      obtain ⟨alternative, member, inside⟩ := (Target.mem_allRoots_iff (first :: rest) id).mp kept
      exact .inr ⟨alternative, .alternative member, inside⟩
    | .shape (.wrapped inner) => exact .inr ⟨.shape inner, .inner, kept⟩
    | .shape (.finished storage root) =>
      rcases List.mem_cons.mp kept with rfl | inside
      · exact .inl ⟨root, rfl⟩
      · exact .inr ⟨.shape root, .root, inside⟩
  · rintro (⟨root, rfl⟩ | ⟨part, has, inside⟩)
    · exact List.mem_cons_self
    · cases has with
      | property member => exact (Property.mem_allRoots_iff _ id).mpr ⟨_, member, inside⟩
      | item => exact inside
      | alternative member => exact (Target.mem_allRoots_iff (_ :: _) id).mpr ⟨_, member, inside⟩
      | inner => exact inside
      | root => exact List.mem_cons_of_mem _ inside

/-- The storages that a target keeps are those of the finished roots at any depth. -/
theorem Target.mem_roots_iff (target : Target) (id : StorageId) :
    id ∈ target.roots ↔ ∃ root, target.Contains (.shape (.finished id root)) := by
  constructor
  · induction target using Target.inductionOnParts with
    | step whole ih =>
      intro kept
      rcases (Target.mem_roots_step whole id).mp kept with ⟨root, rfl⟩ | ⟨part, has, inside⟩
      · exact ⟨root, .refl⟩
      · obtain ⟨root, contains⟩ := ih part has inside
        exact ⟨root, .head has contains⟩
  · rintro ⟨root, contains⟩
    induction contains using ReflTransGen.head_induction_on with
    | refl => exact (Target.mem_roots_step _ id).mpr (.inl ⟨root, rfl⟩)
    | head has _ ih => exact (Target.mem_roots_step _ id).mpr (.inr ⟨_, has, ih⟩)

namespace Store

/-- One step in the graph of a target: to a part, or from a reference to what it stands for. -/
inductive Leads (store : Store) : Target → Target → Prop
  /-- To a part. -/
  | part {whole part : Target} (has : whole.HasPart part) : Leads store whole part
  /-- Along a reference. -/
  | entry {reference : Reference} {shape : HeldShape}
      (resolved : store.resolve reference = .ok shape) :
      Leads store (.reference reference) (.shape shape.value)

/-- A target belongs to the graph of another one. -/
abbrev Reaches (store : Store) : Target → Target → Prop := ReflTransGen store.Leads

/-- Parts at any depth belong to the graph. -/
theorem reaches_of_contains (store : Store) {whole part : Target} (contains : whole.Contains part) :
    store.Reaches whole part :=
  ReflTransGen.mono (fun _ _ => Leads.part) _ _ contains

/-- What holds throughout a graph holds throughout the graph of whatever a step leads to. -/
theorem Leads.throughout {store : Store} {property : Target → Prop} {whole part : Target}
    (leads : store.Leads whole part) (all : ∀ node, store.Reaches whole node → property node) :
    ∀ node, store.Reaches part node → property node :=
  fun node reaches => all node (.head leads reaches)

end Store

/-- The shape of trees, nodes with a list of children, as it stands under `Tree` in a storage. -/
def Shape.tree (id : StorageId) : Shape :=
  .object [.field "children" (.shape (.array (.reference ⟨id, "Tree"⟩)))]

/-- A store with one storage, finished with nothing but the shape of trees. -/
def Store.ofTrees : Store := ⟨[.finished [("Tree", .of (.tree 0))]]⟩

/-- Where `Tree` stands for the shape of trees, the graph of that shape is three targets. -/
theorem Store.reaches_tree {store : Store} {id : StorageId}
    (stands : store.resolve ⟨id, "Tree"⟩ = .ok (.of (.tree id)))
    {node : Target} (reaches : store.Reaches (.shape (.tree id)) node) :
    node = .shape (.tree id) ∨ node = .shape (.array (.reference ⟨id, "Tree"⟩)) ∨
      node = .reference ⟨id, "Tree"⟩ := by
  induction reaches with
  | refl => exact .inl rfl
  | tail _ leads ih =>
    rcases ih with rfl | rfl | rfl
    · obtain ⟨⟨member⟩⟩ := leads
      obtain rfl := List.mem_singleton.mp member
      exact .inr (.inl rfl)
    · obtain ⟨⟨⟩⟩ := leads
      exact .inr (.inr rfl)
    · cases leads with
      | part has => cases has
      | entry resolved =>
        obtain rfl := Except.ok.inj (stands.symm.trans resolved)
        exact .inl rfl

/-- The shape of chains, links with a tag and a next link maybe, as it stands under `Chain` in a
storage. -/
def Shape.chain (id : StorageId) (tag : Shape) : Shape :=
  .object [.field "tag" (.shape tag), .field "next" (.shape (.optional (.reference ⟨id, "Chain"⟩)))]

/-- A store with one storage, finished with nothing but a shape under `Chain`. -/
def Store.ofChains (chain : Shape) : Store := ⟨[.finished [("Chain", .of chain)]]⟩

/-- Whatever a reference stands for in such a store is that shape. -/
theorem Store.eq_of_resolve_ofChains {chain : Shape} {reference : Reference} {shape : HeldShape}
    (resolved : (Store.ofChains chain).resolve reference = .ok shape) : shape = .of chain := by
  have found := ((Store.ofChains chain).resolve_eq_ok_iff reference shape).mp resolved
  obtain ⟨storage, key⟩ := reference
  cases storage with
  | zero => exact congrArg Prod.snd (List.mem_singleton.mp (mem_of_lookup found))
  | succ _ => cases found

/-- Such stores resolve the same references, each to its own shape. -/
theorem Store.resolve_ofChains (chain chain' : Shape) (reference : Reference) :
    (Store.ofChains chain').resolve reference =
      ((Store.ofChains chain).resolve reference).map fun _ => .of chain' := by
  obtain ⟨storage, key⟩ := reference
  cases storage with
  | zero =>
    have found (shape : Shape) : (Store.ofChains shape).resolve ⟨0, key⟩ =
        if key == "Chain" then .ok (.of shape) else .error (.unresolvedKey key) := by
      cases same : key == "Chain" <;>
        simp [resolve, cell, ofChains, Cell.entries, List.lookup_cons, same]
    rw [found, found]
    split <;> rfl
  | succ _ => rfl

/-- The graph of a chain has the alternatives of the next link, besides the tag. -/
theorem Store.reaches_chain {tag : Shape} (leaf : ∀ part, ¬ (Target.shape tag).HasPart part)
    {node : Target}
    (reaches : (Store.ofChains (.chain 0 tag)).Reaches (.shape (.chain 0 tag)) node) :
    node = .shape (.chain 0 tag) ∨ node = .shape tag ∨
      node = .shape (.optional (.reference ⟨0, "Chain"⟩)) ∨ node = .shape .undefined ∨
      node = .shape .null ∨ node = .reference ⟨0, "Chain"⟩ := by
  induction reaches with
  | refl => exact .inl rfl
  | tail _ leads ih =>
    rcases ih with rfl | rfl | rfl | rfl | rfl | rfl
    · obtain ⟨⟨member⟩⟩ := leads
      simp only [List.mem_cons, List.not_mem_nil, or_false] at member
      rcases member with rfl | rfl
      · exact .inr (.inl rfl)
      · exact .inr (.inr (.inl rfl))
    · obtain ⟨has⟩ := leads
      exact absurd has (leaf _)
    · obtain ⟨has⟩ := leads
      cases has with
      | alternative member =>
        simp only [List.mem_cons, List.not_mem_nil, or_false] at member
        exact .inr (.inr (.inr member))
    · obtain ⟨⟨⟩⟩ := leads
    · obtain ⟨⟨⟩⟩ := leads
    · cases leads with
      | part has => cases has
      | entry resolved =>
        rw [eq_of_resolve_ofChains resolved]
        exact .inl rfl

end Conform

import Conform.Registry.Basic
/-!
# Registries only grow

What happens to an open registry adds to it and takes nothing back, so a registry that another one
has grown into starts with all that the other one had. A registry can be finished exactly when no
key was registered again and every key that a reference was made for has a shape.
-/

namespace Conform.Registry

/-- A registry has everything that another one has, at the same places, and maybe more behind. -/
structure Extends (earlier later : Registry) : Prop where
  /-- The entries. -/
  entries : earlier.entries <+: later.entries
  /-- The keys that references were made for. -/
  referenced : earlier.referenced <+: later.referenced
  /-- The keys that were registered again. -/
  duplicates : earlier.duplicates <+: later.duplicates

namespace Extends

variable {earlier middle later : Registry}

/-- Nothing more is enough. -/
theorem refl (registry : Registry) : registry.Extends registry :=
  ⟨List.prefix_rfl, List.prefix_rfl, List.prefix_rfl⟩

/-- Growth adds up. -/
theorem trans (first : earlier.Extends middle) (second : middle.Extends later) :
    earlier.Extends later :=
  ⟨first.entries.trans second.entries, first.referenced.trans second.referenced,
    first.duplicates.trans second.duplicates⟩

end Extends

/-- Registering grows the registry, also under a key that has a shape. -/
theorem extends_index (registry : Registry) (key : String) (shape : HeldShape) :
    registry.Extends (registry.index key shape) := by
  unfold index
  split
  · exact ⟨List.prefix_rfl, List.prefix_rfl, List.prefix_append _ _⟩
  · exact ⟨List.prefix_append _ _, List.prefix_rfl, List.prefix_rfl⟩

/-- Noting a reference grows the registry. -/
theorem extends_refer (registry : Registry) (key : String) :
    registry.Extends (registry.refer key) :=
  ⟨List.prefix_rfl, List.prefix_append _ _, List.prefix_rfl⟩

/-- Every entry after a registration was there before or is the registered one. -/
theorem mem_entries_index {registry : Registry} {key : String} {shape : HeldShape}
    {entry : String × HeldShape} (member : entry ∈ (registry.index key shape).entries) :
    entry ∈ registry.entries ∨ entry = (key, shape) := by
  unfold index at member
  split at member
  · exact .inl member
  · rcases List.mem_append.mp member with old | new
    · exact .inl old
    · exact .inr (List.mem_singleton.mp new)

/-- Erasing repetitions moves every element to the result. -/
theorem mem_eraseReps_loop (key first : String) (rest done : List String) :
    key ∈ List.eraseRepsBy.loop (· == ·) first rest done ↔
      key = first ∨ key ∈ rest ∨ key ∈ done := by
  induction rest generalizing first done with
  | nil => simp [List.eraseRepsBy.loop, or_comm]
  | cons next rest ih =>
    cases same : first == next with
    | true =>
      obtain rfl := beq_iff_eq.mp same
      simp only [List.eraseRepsBy.loop, same, ih, List.mem_cons]
      constructor
      · rintro (new | later | old)
        · exact .inl new
        · exact .inr (.inl (.inr later))
        · exact .inr (.inr old)
      · rintro (new | (new | later) | old)
        · exact .inl new
        · exact .inl new
        · exact .inr (.inl later)
        · exact .inr (.inr old)
    | false =>
      simp only [List.eraseRepsBy.loop, same, ih, List.mem_cons]
      constructor
      · rintro (new | later | old | earlier)
        · exact .inr (.inl (.inl new))
        · exact .inr (.inl (.inr later))
        · exact .inl old
        · exact .inr (.inr earlier)
      · rintro (old | (new | later) | earlier)
        · exact .inr (.inr (.inl old))
        · exact .inl new
        · exact .inr (.inl later)
        · exact .inr (.inr (.inr earlier))

/-- Erasing repetitions keeps every element. -/
theorem mem_eraseReps (key : String) (list : List String) : key ∈ list.eraseReps ↔ key ∈ list := by
  cases list with
  | nil => rfl
  | cons first rest =>
    rw [List.eraseReps, List.eraseRepsBy, mem_eraseReps_loop]
    simp

/-- The missing keys are those that references were made for and that have no shape. -/
theorem mem_unresolved_iff (registry : Registry) (key : String) :
    key ∈ registry.unresolved ↔ key ∈ registry.referenced ∧ key ∉ registry.keys := by
  rw [unresolved, mem_eraseReps, List.mem_mergeSort, List.mem_filter, Bool.not_eq_true',
    contains, ← Bool.not_eq_true, List.contains_iff_mem]

/-- Erasing the repetitions of an ascending list leaves a strictly ascending one. -/
theorem pairwise_lt_eraseReps_loop {first : String} {rest done : List String}
    (ascending : (first :: rest).Pairwise (· ≤ ·)) (strictly : (first :: done).Pairwise (· > ·)) :
    (List.eraseRepsBy.loop (· == ·) first rest done).Pairwise (· < ·) := by
  induction rest generalizing first done with
  | nil => exact List.pairwise_reverse.mpr strictly
  | cons next rest ih =>
    obtain ⟨fromFirst, others⟩ := List.pairwise_cons.mp ascending
    cases same : first == next with
    | true =>
      have skipped : (first :: rest).Pairwise (· ≤ ·) :=
        ascending.sublist (List.Sublist.cons_cons first (List.sublist_cons_self next rest))
      simp only [List.eraseRepsBy.loop, same]
      exact ih skipped strictly
    | false =>
      have different : first ≠ next := beq_eq_false_iff_ne.mp same
      have below : first < next := String.not_le.mp fun reverse =>
        different (String.le_antisymm (fromFirst next List.mem_cons_self) reverse)
      simp only [List.eraseRepsBy.loop, same]
      apply ih others
      apply List.pairwise_cons.mpr
      constructor
      · intro earlier member
        rcases List.mem_cons.mp member with rfl | before
        · exact below
        · exact String.lt_trans ((List.pairwise_cons.mp strictly).1 earlier before) below
      · exact strictly

/-- The missing keys are listed in strictly ascending order. -/
theorem pairwise_lt_unresolved (registry : Registry) : registry.unresolved.Pairwise (· < ·) := by
  have passes (first second third : String) (below : decide (first ≤ second) = true)
      (next : decide (second ≤ third) = true) : decide (first ≤ third) = true :=
    decide_eq_true (String.le_trans (of_decide_eq_true below) (of_decide_eq_true next))
  have compares (first second : String) :
      (decide (first ≤ second) || decide (second ≤ first)) = true := by
    simp only [Bool.or_eq_true, decide_eq_true_eq]
    exact String.le_total first second
  have sorted := List.pairwise_mergeSort passes compares
    (registry.referenced.filter fun key => !registry.contains key)
  simp only [decide_eq_true_eq] at sorted
  rw [unresolved]
  generalize List.mergeSort _ _ = keys at sorted
  cases keys with
  | nil => exact .nil
  | cons first rest => exact pairwise_lt_eraseReps_loop sorted (List.pairwise_singleton _ _)

/-- A registry can be finished exactly if no key is a duplicate and none is missing; its entries
are then those of the finished registry. -/
theorem finish_eq_ok_iff (registry : Registry) (entries : Entries) :
    registry.finish = .ok entries ↔
      registry.duplicates = [] ∧ (∀ key ∈ registry.referenced, key ∈ registry.keys) ∧
        entries = registry.entries := by
  have complete : registry.unresolved = [] ↔ ∀ key ∈ registry.referenced, key ∈ registry.keys := by
    simp only [List.eq_nil_iff_forall_not_mem, mem_unresolved_iff, not_and,
      Decidable.not_not]
  rw [← complete]
  unfold finish
  cases registry.duplicates with
  | cons key rest => simp
  | nil =>
    cases registry.unresolved with
    | cons key rest => simp
    | nil => simp [eq_comm]

end Conform.Registry

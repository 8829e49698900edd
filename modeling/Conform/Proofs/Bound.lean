import Mathlib.Algebra.Order.Group.Nat
import Mathlib.Data.Finset.Card
import Mathlib.Order.Lattice.Nat
import Conform.Proofs.Congruence
/-!
# The bound on following references

A bound only cuts evaluations short: a larger one gives the same result wherever the smaller one
gave any. And `Store.bound` is large enough wherever some bound is. The argument counts entrances:
an entry that is entered inside itself for the same candidate needs a bound smaller than its own
least one, so between two candidates of different depth every entry is entered at most once.
`Store.evaluate_eq_iff` therefore speaks of evaluation without any bound.
-/

namespace Conform

open Relation

/-- Results other than running into the bound stay. -/
def Congruence.ending : Congruence := .keeping (· ≠ .exhausted)

/-- A result related by `Congruence.ending` is the same wherever the first one is no exhaustion. -/
theorem Congruence.eq_of_ending {α : Type} {first second : Checked α}
    (related : Congruence.ending.Related first second) (ends : first ≠ .error .exhausted) :
    second = first := by
  cases first with
  | ok value => exact related
  | error cause => exact related fun same => ends (congrArg _ same)

/-- Only results that are no exhaustion have to be compared. -/
theorem Congruence.ending_of_eq {α : Type} {first second : Checked α}
    (same : first ≠ .error .exhausted → second = first) :
    Congruence.ending.Related first second := by
  cases first with
  | ok value => exact same nofun
  | error cause => exact fun kept => same fun exhausted => kept (Except.error.inj exhausted)

/-- All results stay. -/
def Congruence.all : Congruence := .keeping fun _ => True

/-- Results related by `Congruence.all` are the same. -/
theorem Congruence.eq_of_all {α : Type} {first second : Checked α}
    (related : Congruence.all.Related first second) : second = first := by
  cases first with
  | ok value => exact related
  | error cause => exact related trivial

/-- The same results are related. -/
theorem Congruence.all_of_eq {α : Type} {first second : Checked α} (same : second = first) :
    Congruence.all.Related first second := by
  cases first with
  | ok value => exact same
  | error cause => exact fun _ => same

namespace Store

variable (store : Store)

/-- Following a reference that cannot be resolved fails under every bound. -/
theorem follow_of_unresolved {reference : Reference} {error : RegistryError}
    (unresolved : store.resolve reference = .error error) (bound : Nat)
    (candidate : Option Json) :
    store.follow bound reference candidate = .error (.unresolved error) := by
  cases bound <;> simp only [follow, unresolved]

/-- A bound of zero does not suffice for a reference that can be resolved. -/
theorem follow_zero_of_resolved {reference : Reference} {shape : HeldShape}
    (resolved : store.resolve reference = .ok shape) (candidate : Option Json) :
    store.follow 0 reference candidate = .error .exhausted := by
  simp only [follow, resolved]

/-- Following a reference checks the candidate against what it stands for. -/
theorem follow_succ_of_resolved {reference : Reference} {shape : HeldShape}
    (resolved : store.resolve reference = .ok shape) (bound : Nat) (candidate : Option Json) :
    store.follow (bound + 1) reference candidate =
      store.evaluateWithin bound shape.value candidate := by
  simp only [follow, resolved, evaluateWithin]

/-- A bound that is larger by one changes no result that is there already. -/
theorem follow_succ_ending (bound : Nat) (reference : Reference) (candidate : Option Json) :
    Congruence.ending.Related (store.follow bound reference candidate)
      (store.follow (bound + 1) reference candidate) := by
  induction bound generalizing reference candidate with
  | zero =>
    cases resolved : store.resolve reference with
    | error error =>
      apply Congruence.ending_of_eq
      intro _
      rw [store.follow_of_unresolved resolved, store.follow_of_unresolved resolved]
    | ok shape =>
      apply Congruence.ending_of_eq
      intro ends
      exact absurd (store.follow_zero_of_resolved resolved candidate) ends
  | succ bound ih =>
    cases resolved : store.resolve reference with
    | error error =>
      apply Congruence.ending_of_eq
      intro _
      rw [store.follow_of_unresolved resolved, store.follow_of_unresolved resolved]
    | ok shape =>
      rw [store.follow_succ_of_resolved resolved, store.follow_succ_of_resolved resolved]
      exact Congruence.ending.check_related (.shape shape.value) candidate
        fun other _ part _ => ih other part

/-- A larger bound changes no result that is there already. -/
theorem follow_eq_of_le {smaller larger : Nat} (ordered : smaller ≤ larger)
    {reference : Reference} {candidate : Option Json}
    (ends : store.follow smaller reference candidate ≠ .error .exhausted) :
    store.follow larger reference candidate = store.follow smaller reference candidate := by
  induction ordered with
  | refl => rfl
  | @step bound _ ih =>
    have step := Congruence.eq_of_ending (store.follow_succ_ending bound reference candidate)
    rw [step (by rwa [ih]), ih]

/-- The references that stand for something, one for every entry. -/
def addresses : List Reference :=
  store.cells.zipIdx.flatMap fun cell => cell.1.entries.map fun entry => ⟨cell.2, entry.1⟩

/-- There are as many of them as entries. -/
theorem length_addresses : store.addresses.length = store.entryCount := by
  have lengths (cells : List Cell) (start : Nat) :
      ((cells.zipIdx start).flatMap fun cell =>
        cell.1.entries.map fun entry => (⟨cell.2, entry.1⟩ : Reference)).length =
      (cells.flatMap Cell.entries).length := by
    induction cells generalizing start with
    | nil => rfl
    | cons cell rest ih => simp [List.zipIdx_cons, ih]
  exact lengths store.cells 0

/-- A reference that stands for something is among them. -/
theorem mem_addresses_of_resolved {reference : Reference} {shape : HeldShape}
    (resolved : store.resolve reference = .ok shape) : reference ∈ store.addresses := by
  have found := (store.resolve_eq_ok_iff reference shape).mp resolved
  refine List.mem_flatMap.mpr ⟨(store.cell reference.storage, reference.storage), ?_, ?_⟩
  · rw [List.mem_zipIdx_iff_getElem?]
    cases stored : store.cells[reference.storage]? with
    | some cell => simp [Store.cell, stored]
    | none => simp [Store.cell, stored, Cell.entries] at found
  · exact List.mem_map.mpr ⟨(reference.key, shape), mem_of_lookup found, rfl⟩

/-- The least bound that suffices for following a reference, where there is one. -/
noncomputable def rank (reference : Reference) (candidate : Option Json) : Nat :=
  sInf {bound | store.follow bound reference candidate ≠ .error .exhausted}

/-- An upper bound on the bounds that following a reference needs: the entries for each depth
below that of the candidate, and the entries of lower rank for the candidate itself. -/
noncomputable def workload (reference : Reference) (candidate : Option Json) : Nat :=
  Json.depth? candidate * (store.entryCount + 1) +
    (store.addresses.toFinset.filter fun other =>
      store.rank other candidate < store.rank reference candidate).card + 1

/-- The workload is within the bound that evaluation takes. -/
theorem workload_le (reference : Reference) (candidate : Option Json) :
    store.workload reference candidate ≤
      (Json.depth? candidate + 1) * (store.entryCount + 1) := by
  have counted := Finset.card_filter_le store.addresses.toFinset fun other =>
    store.rank other candidate < store.rank reference candidate
  have listed := store.addresses.toFinset_card_le
  rw [length_addresses] at listed
  rw [workload, Nat.succ_mul]
  omega

/-- What a check asks about at a smaller candidate, or at a lower rank, has a smaller workload. -/
theorem workload_lt {reference other : Reference} {candidate part : Option Json}
    {shape : HeldShape} (resolved : store.resolve other = .ok shape)
    (within : Within part candidate)
    (lower : part = candidate → store.rank other candidate < store.rank reference candidate) :
    store.workload other part < store.workload reference candidate := by
  rcases within with rfl | shallower
  · have listed := List.mem_toFinset.mpr (store.mem_addresses_of_resolved resolved)
    have fewer := Finset.card_lt_card (s := store.addresses.toFinset.filter fun each =>
        store.rank each part < store.rank other part)
      (t := store.addresses.toFinset.filter fun each =>
        store.rank each part < store.rank reference part) ?_
    · simp only [workload]
      omega
    · refine Finset.ssubset_iff_of_subset ?_ |>.mpr ⟨other, ?_, ?_⟩
      · intro each member
        rw [Finset.mem_filter] at member ⊢
        exact ⟨member.1, Nat.lt_trans member.2 (lower rfl)⟩
      · exact Finset.mem_filter.mpr ⟨listed, lower rfl⟩
      · exact fun member => Nat.lt_irrefl _ (Finset.mem_filter.mp member).2
  · have covered := store.workload_le other part
    have room : (Json.depth? part + 1) * (store.entryCount + 1) ≤
        Json.depth? candidate * (store.entryCount + 1) := Nat.mul_le_mul_right _ shallower
    simp only [workload] at covered ⊢
    omega

/-- Wherever following a reference ends under some bound, it ends under every bound from the
workload on: what the check asks under the least such bound has a smaller workload. -/
theorem follow_ends {reference : Reference} {candidate : Option Json}
    (ends : ∃ bound, store.follow bound reference candidate ≠ .error .exhausted) {bound : Nat}
    (enough : store.workload reference candidate ≤ bound) :
    store.follow bound reference candidate ≠ .error .exhausted := by
  induction bound generalizing reference candidate with
  | zero =>
    simp only [workload] at enough
    omega
  | succ bound ih =>
    cases resolved : store.resolve reference with
    | error error => simp [store.follow_of_unresolved resolved]
    | ok shape =>
      have least : store.follow (store.rank reference candidate) reference candidate ≠
        .error .exhausted := Nat.sInf_mem ends
      cases ranked : store.rank reference candidate with
      | zero =>
        rw [ranked] at least
        exact absurd (store.follow_zero_of_resolved resolved candidate) least
      | succ before =>
        rw [ranked, store.follow_succ_of_resolved resolved] at least
        rw [store.follow_succ_of_resolved resolved]
        have same : Congruence.ending.Related
            (store.evaluateWithin before shape.value candidate)
            (store.evaluateWithin bound shape.value candidate) := by
          apply Congruence.ending.check_related (.shape shape.value) candidate
          intro other _ part within
          apply Congruence.ending_of_eq
          intro answered
          cases known : store.resolve other with
          | error error =>
            rw [store.follow_of_unresolved known, store.follow_of_unresolved known]
          | ok entry =>
            have lower : part = candidate →
                store.rank other candidate < store.rank reference candidate := by
              rintro rfl
              have reached : store.rank other part ≤ before := Nat.sInf_le answered
              omega
            have smaller := store.workload_lt known within lower
            have suffices_ := ih ⟨before, answered⟩ (by omega)
            rcases Nat.le_total before bound with ordered | ordered
            · exact store.follow_eq_of_le ordered answered
            · exact (store.follow_eq_of_le ordered suffices_).symm
        rw [Congruence.eq_of_ending same least]
        exact least

/-- Wherever the check of a target ends under some bound, it ends with the same result under the
bound that `evaluate` takes. -/
theorem check_follow_bound_of_ends {bound : Nat} {target : Target} {candidate : Option Json}
    (ends : target.check (store.follow bound) candidate ≠ .error .exhausted) :
    target.check (store.follow (store.bound candidate)) candidate =
      target.check (store.follow bound) candidate := by
  refine Congruence.eq_of_ending ?_ ends
  apply Congruence.ending.check_related target candidate
  intro reference _ part within
  apply Congruence.ending_of_eq
  intro answered
  have enough : store.workload reference part ≤ store.bound candidate := by
    apply Nat.le_trans (store.workload_le reference part)
    rw [Store.bound, Nat.mul_comm]
    apply Nat.mul_le_mul_left _
    rcases within with rfl | shallower <;> omega
  have ended := store.follow_ends ⟨bound, answered⟩ enough
  rcases Nat.le_total bound (store.bound candidate) with ordered | ordered
  · exact store.follow_eq_of_le ordered answered
  · exact (store.follow_eq_of_le ordered ended).symm

/-- Wherever evaluation ends under some bound, it ends with the same result under the bound that
`evaluate` takes. -/
theorem evaluate_eq_of_ends {bound : Nat} {shape : Shape} {candidate : Option Json}
    (ends : store.evaluateWithin bound shape candidate ≠ .error .exhausted) :
    store.evaluate shape candidate = store.evaluateWithin bound shape candidate := by
  have whole : (Target.shape shape).check (store.follow bound) candidate ≠ .error .exhausted := ends
  exact store.check_follow_bound_of_ends whole

/-- Evaluation has a result exactly if it has it under some bound. -/
theorem evaluate_eq_iff {shape : Shape} {candidate : Option Json} {result : Checked Outcome}
    (ends : result ≠ .error .exhausted) :
    store.evaluate shape candidate = result ↔
      ∃ bound, store.evaluateWithin bound shape candidate = result := by
  constructor
  · exact fun evaluated => ⟨store.bound candidate, evaluated⟩
  · rintro ⟨bound, rfl⟩
    exact store.evaluate_eq_of_ends ends

/-- A check depends on nothing but what the references in the graph are resolved to. -/
theorem check_follow_congr {first second : Store} (bound : Nat) {target : Target}
    (same : ∀ reference, first.Reaches target (.reference reference) →
      second.resolve reference = first.resolve reference) (candidate : Option Json) :
    target.check (second.follow bound) candidate = target.check (first.follow bound) candidate := by
  apply Congruence.eq_of_all
  induction bound generalizing target candidate with
  | zero =>
    apply Congruence.all.check_related target candidate
    intro reference contains part _
    apply Congruence.all_of_eq
    simp only [follow, same reference (first.reaches_of_contains contains)]
  | succ bound ih =>
    apply Congruence.all.check_related target candidate
    intro reference contains part _
    have reached := first.reaches_of_contains contains
    cases resolved : first.resolve reference with
    | error error =>
      have unresolved := (same reference reached).trans resolved
      apply Congruence.all_of_eq
      rw [first.follow_of_unresolved resolved, second.follow_of_unresolved unresolved]
    | ok shape =>
      have found := (same reference reached).trans resolved
      rw [first.follow_succ_of_resolved resolved, second.follow_succ_of_resolved found]
      have onward (other : Reference)
          (reaches : first.Reaches (.shape shape.value) (.reference other)) :
          second.resolve other = first.resolve other :=
        same other (reached.trans (.head (.entry resolved) reaches))
      exact ih onward part

/-- Evaluation depends on nothing but what the references in the graph are resolved to, not on what
else there is or how it is kept. Where the one evaluation does not end, the other one does not
either. -/
theorem evaluate_congr_of_reaches {first second : Store} {shape : Shape}
    (same : ∀ reference, first.Reaches (.shape shape) (.reference reference) →
      second.resolve reference = first.resolve reference) (candidate : Option Json) :
    second.evaluate shape candidate = first.evaluate shape candidate := by
  have within (bound : Nat) : second.evaluateWithin bound shape candidate =
      first.evaluateWithin bound shape candidate := check_follow_congr bound same candidate
  by_cases ends : first.evaluateWithin (first.bound candidate) shape candidate = .error .exhausted
  · rw [evaluate, within, evaluate, ends]
    by_contra different
    have ended := first.evaluate_eq_of_ends different
    exact different (ended.symm.trans ends)
  · rw [← within] at ends
    exact (second.evaluate_eq_of_ends ends).trans (within _)

/-- Stores in which all references are resolved to the same evaluate alike. -/
theorem evaluate_congr {first second : Store}
    (same : ∀ reference, second.resolve reference = first.resolve reference) (shape : Shape)
    (candidate : Option Json) : second.evaluate shape candidate = first.evaluate shape candidate :=
  evaluate_congr_of_reaches (fun reference _ => same reference) candidate

/-- Where every reference in the graph stands for a shape, only the bound on following references
can be in the way of an outcome. -/
theorem exhausted_of_resolves (bound : Nat) {target : Target}
    (resolves : ∀ reference, store.Reaches target (.reference reference) →
      ∃ shape, store.resolve reference = .ok shape) (candidate : Option Json) :
    (Congruence.allowing (· = .exhausted)).Related (target.check (store.follow bound) candidate)
      (target.check (store.follow bound) candidate) := by
  induction bound generalizing target candidate with
  | zero =>
    apply Congruence.check_related _ target candidate
    intro reference contains part _
    obtain ⟨shape, resolved⟩ := resolves reference (store.reaches_of_contains contains)
    rw [store.follow_zero_of_resolved resolved]
    rintro cause failed
    exact (Except.error.inj failed).symm
  | succ bound ih =>
    apply Congruence.check_related _ target candidate
    intro reference contains part _
    have reached := store.reaches_of_contains contains
    obtain ⟨shape, resolved⟩ := resolves reference reached
    rw [store.follow_succ_of_resolved resolved]
    have onward (other : Reference)
        (reaches : store.Reaches (.shape shape.value) (.reference other)) :
        ∃ shape, store.resolve other = .ok shape :=
      resolves other (reached.trans (.head (.entry resolved) reaches))
    exact ih onward part

end Store

end Conform

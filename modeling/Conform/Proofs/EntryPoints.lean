import Mathlib.Data.List.TFAE
import Conform.Proofs.Derivation
import Conform.Proofs.Mismatch
/-!
# The questions of callers agree

Some questions about a candidate are answered by the top of its outcome, others by whether the
outcome has a mismatch anywhere in it. They agree because every outcome that evaluation returns is
`valid` or has a mismatch: a shape that refuses a candidate passes on the outcomes of the parts
that refused theirs. The one thing that could spoil this is a function that refuses a candidate
without a mismatch.
-/

namespace Conform

/-- A node whose function, if it has one, gives a mismatch for every candidate that it refuses. -/
def Target.Explains : Target → Prop
  | .shape (.custom judge) => ∀ candidate,
    judge candidate = .valid ∨ 0 < (judge candidate).leafCount
  | _ => True

namespace Outcome

/-- Some leaf of the outcome is a mismatch, unless the outcome is `valid`. -/
def Explained (outcome : Outcome) : Prop := outcome = .valid ∨ outcome.located ≠ []

/-- An explained outcome without a mismatch is `valid`. -/
theorem Explained.eq_valid_iff {outcome : Outcome} (explained : outcome.Explained) :
    outcome = .valid ↔ outcome.located = [] := by
  constructor
  · rintro rfl
    rfl
  · exact explained.resolve_right ∘ not_not_intro

/-- A whole is explained by an explained part that is not `valid`. -/
theorem Explained.of_hasPart {whole part : Outcome} (has : whole.HasPart part)
    (invalid : part ≠ .valid) (explained : part.Explained) : whole.Explained :=
  .inr (located_ne_nil_of_hasPart has (explained.resolve_left invalid))

/-- Properties are explained if each mismatched one is. -/
theorem Explained.ofProperties {outcomes : Property → Outcome} {properties : List Property}
    (each : ∀ property ∈ properties, (outcomes property).Explained) :
    (ofProperties (mismatches Property.name outcomes properties)).Explained := by
  cases collected : mismatches Property.name outcomes properties with
  | nil => exact .inl rfl
  | cons first rest =>
    have listed : first ∈ mismatches Property.name outcomes properties :=
      collected ▸ List.mem_cons_self
    obtain ⟨property, member, invalid, rfl⟩ := (mem_mismatches_iff _ _ _ _).mp listed
    exact .of_hasPart (.property List.mem_cons_self) invalid (each property member)

/-- Items are explained if each mismatched one is. -/
theorem Explained.ofItems {outcomes : Json → Outcome} {elements : List Json}
    (each : ∀ element ∈ elements, (outcomes element).Explained) :
    (ofItems (mismatches Prod.snd (fun entry => outcomes entry.1)
      elements.zipIdx)).Explained := by
  cases collected : mismatches Prod.snd (fun entry => outcomes entry.1) elements.zipIdx with
  | nil => exact .inl rfl
  | cons first rest =>
    have listed : first ∈ mismatches Prod.snd (fun entry => outcomes entry.1) elements.zipIdx :=
      collected ▸ List.mem_cons_self
    obtain ⟨⟨element, position⟩, numbered, invalid, rfl⟩ := (mem_mismatches_iff _ _ _ _).mp listed
    have member : element ∈ elements := (List.mem_zipIdx' numbered).2 ▸ List.getElem_mem _
    exact .of_hasPart (.item List.mem_cons_self) invalid (each element member)

end Outcome

namespace Store

/-- Whatever a graph yields is explained, if its functions explain what they refuse. -/
theorem explained_of_yields {store : Store} {target : Target} {candidate : Option Json}
    {outcome : Outcome} (yields : store.Yields target candidate outcome)
    (explains : ∀ node, store.Reaches target node → node.Explains) : outcome.Explained := by
  induction yields with
  | kind _ => exact .inl rfl
  | wrongKind _ => exact .inr (List.cons_ne_nil _ _)
  | literal _ => exact .inl rfl
  | wrongValue _ => exact .inr (List.cons_ne_nil _ _)
  | object outcomes _ ih =>
    apply Outcome.Explained.ofProperties
    exact fun property member =>
      ih property member (Leads.throughout (.part (.property member)) explains)
  | notObject _ => exact .inr (List.cons_ne_nil _ _)
  | array outcomes _ ih =>
    apply Outcome.Explained.ofItems
    exact fun element member => ih element member (Leads.throughout (.part .item) explains)
  | notArray _ => exact .inr (List.cons_ne_nil _ _)
  | chosen _ _ _ _ _ _ => exact .inl rfl
  | @refused first rest candidate outcomes _ refused ih =>
    have member : first ∈ first :: rest := List.mem_cons_self
    apply Outcome.Explained.of_hasPart (.alternative (List.mem_map_of_mem member))
    · exact refused first member
    · exact ih first member (Leads.throughout (.part (.alternative member)) explains)
  | @custom judge candidate =>
    apply (explains _ .refl candidate).imp_right
    intro counted
    rw [← Outcome.length_located] at counted
    exact List.ne_nil_of_length_pos counted
  | wrapped _ ih => exact ih (Leads.throughout (.part .inner) explains)
  | finished _ ih => exact ih (Leads.throughout (.part .root) explains)
  | reference resolved _ ih => exact ih (Leads.throughout (.entry resolved) explains)

end Store

namespace Describer

variable (describer : Describer) (outcome : Outcome) (root : String)

/-- There is no diagnostic exactly if there is no mismatch. -/
theorem diagnostics_eq_none_iff :
    describer.diagnostics outcome root = none ↔ outcome.located = [] := by
  have listed := describer.toList_diagnostics outcome root
  cases found : describer.diagnostics outcome root with
  | none =>
    rw [found] at listed
    exact ⟨fun _ => List.map_eq_nil_iff.mp listed.symm, fun _ => rfl⟩
  | some diagnostics =>
    rw [found] at listed
    constructor
    · nofun
    · intro none
      rw [none] at listed
      exact absurd listed (List.cons_ne_nil _ _)

/-- There are as many diagnostics as leaves. -/
theorem length_of_diagnostics {diagnostics : Diagnostics}
    (found : describer.diagnostics outcome root = some diagnostics) :
    diagnostics.length = outcome.leafCount := by
  have listed := describer.toList_diagnostics outcome root
  rw [found, Option.map_some, Option.getD_some] at listed
  rw [Diagnostics.length, listed, diagnosticsOf, List.length_map, Outcome.length_located]

/-- Another success marker changes no diagnostic. -/
theorem diagnostics_withMarker (marker : String) :
    { describer with successMarker := marker }.diagnostics outcome root =
      describer.diagnostics outcome root := by
  rw [diagnostics, diagnostics, collect_eq_diagnosticsOf, collect_eq_diagnosticsOf]
  rfl

/-- The success marker is written, whichever it is, exactly if there is no diagnostic: no one text
is every marker. -/
theorem describe_eq_marker_iff :
    (∀ marker, { describer with successMarker := marker }.describe outcome root = marker) ↔
      describer.diagnostics outcome root = none := by
  cases found : describer.diagnostics outcome root with
  | none => simp [describe, diagnostics_withMarker, found]
  | some diagnostics =>
    simp only [describe, diagnostics_withMarker, found, reduceCtorEq, iff_false]
    intro every
    exact absurd ((every "").symm.trans (every "!")) (by decide)

end Describer

namespace Store

variable {store : Store} {shape : Shape} {value : Json} {outcome : Outcome}

/-- Whether a value is valid is told by its outcome. -/
theorem isValid_of_validate (returned : store.validate shape value = .ok outcome) :
    store.isValid shape value = .ok outcome.isValid := by
  rw [isValid, returned]
  rfl

/-- A value is passed on, or its diagnostics are given, by whether there are any. -/
theorem check_of_validate (returned : store.validate shape value = .ok outcome) (name : String) :
    store.check shape name value =
      .ok (match ({} : Describer).diagnostics outcome name with
        | some diagnostics => .error diagnostics
        | none => .ok value) := by
  simp only [check, returned, bind, Except.bind]
  cases ({} : Describer).diagnostics outcome name <;> rfl

/-- A value is passed on, or an error is given, by the top of the outcome. -/
theorem assert_of_validate (returned : store.validate shape value = .ok outcome) (name : String) :
    store.assert shape name value =
      .ok (if outcome.isValid then .ok value
        else .error ⟨name, ({} : Describer).describe outcome name, outcome⟩) := by
  rw [Store.assert, returned]
  cases outcome <;> rfl

/-- What a check passes on is the value itself, and only if there is no mismatch. -/
theorem check_eq_passed_iff (returned : store.validate shape value = .ok outcome) (name : String)
    (passed : Json) :
    store.check shape name value = .ok (.ok passed) ↔
      passed = value ∧ outcome.located = [] := by
  rw [check_of_validate returned, ← ({} : Describer).diagnostics_eq_none_iff outcome name]
  cases ({} : Describer).diagnostics outcome name <;> simp [eq_comm]

/-- What an assertion passes on is the value itself, and only if it is valid. -/
theorem assert_eq_passed_iff (returned : store.validate shape value = .ok outcome)
    (name : String) (passed : Json) :
    store.assert shape name value = .ok (.ok passed) ↔ passed = value ∧ outcome = .valid := by
  rw [assert_of_validate returned, ← Outcome.isValid_iff]
  cases outcome.isValid <;> simp [eq_comm]

/-- Where the functions in a graph explain what they refuse, all questions about a value that has
an outcome agree on whether it is valid. A valid value is passed on itself. For any other one
there are as many diagnostics as leaves in the outcome, their text is the report of the failed
assertion, and the outcome in that assertion is the one of the value. -/
theorem entry_points_agree (explains : ∀ node, store.Reaches (.shape shape) node → node.Explains)
    (returned : store.validate shape value = .ok outcome) (describer : Describer)
    (name : String) :
    [store.validate shape value = .ok .valid,
      store.isValid shape value = .ok true,
      outcome.leafCount = 0,
      describer.diagnostics outcome name = none,
      ∀ marker, { describer with successMarker := marker }.describe outcome name = marker,
      ∃ passed, store.check shape name value = .ok (.ok passed),
      ∃ passed, store.assert shape name value = .ok (.ok passed)].TFAE ∧
    (∀ passed, store.check shape name value = .ok (.ok passed) → passed = value) ∧
    (∀ passed, store.assert shape name value = .ok (.ok passed) → passed = value) ∧
    (outcome ≠ .valid → ∃ diagnostics error,
      store.check shape name value = .ok (.error diagnostics) ∧
      store.assert shape name value = .ok (.error error) ∧
      diagnostics.length = error.outcome.leafCount ∧ diagnostics.text = error.report ∧
      store.validate shape value = .ok error.outcome) := by
  have unmatched : outcome = .valid ↔ outcome.located = [] :=
    (explained_of_yields (store.evaluate_eq_ok_iff.mp returned) explains).eq_valid_iff
  refine ⟨List.tfae_of_forall (outcome = .valid) _ ?_, ?_, ?_, ?_⟩
  · have validated : store.validate shape value = .ok .valid ↔ outcome = .valid := by
      rw [returned, Except.ok.injEq]
    have answered : store.isValid shape value = .ok true ↔ outcome = .valid := by
      rw [isValid_of_validate returned, Except.ok.injEq, Outcome.isValid_iff]
    have counted : outcome.leafCount = 0 ↔ outcome = .valid := by
      rw [← Outcome.length_located, List.length_eq_zero_iff, unmatched]
    have diagnosed : describer.diagnostics outcome name = none ↔ outcome = .valid := by
      rw [Describer.diagnostics_eq_none_iff, unmatched]
    have described := (describer.describe_eq_marker_iff outcome name).trans diagnosed
    have checked : (∃ passed, store.check shape name value = .ok (.ok passed)) ↔
        outcome = .valid := by
      simp only [check_eq_passed_iff returned, unmatched, exists_eq_left]
    have asserted : (∃ passed, store.assert shape name value = .ok (.ok passed)) ↔
        outcome = .valid := by
      simp only [assert_eq_passed_iff returned, exists_eq_left]
    simp only [List.forall_mem_cons, List.not_mem_nil, false_imp_iff, implies_true, and_true]
    exact ⟨validated, answered, counted, diagnosed, described, checked, asserted⟩
  · exact fun passed accepted => ((check_eq_passed_iff returned name passed).mp accepted).1
  · exact fun passed accepted => ((assert_eq_passed_iff returned name passed).mp accepted).1
  · intro invalid
    have refused : ¬ outcome.isValid = true := fun isValid =>
      invalid ((Outcome.isValid_iff outcome).mp isValid)
    cases found : ({} : Describer).diagnostics outcome name with
    | none =>
      have none := (({} : Describer).diagnostics_eq_none_iff outcome name).mp found
      exact absurd (unmatched.mpr none) invalid
    | some diagnostics =>
      refine ⟨diagnostics, ⟨name, ({} : Describer).describe outcome name, outcome⟩, ?_, ?_, ?_, ?_,
        returned⟩
      · rw [check_of_validate returned, found]
      · rw [assert_of_validate returned, if_neg refused]
      · exact ({} : Describer).length_of_diagnostics outcome name found
      · simp only [Describer.describe, found]

end Store

/-- The shape of nested lists of even integers, as it stands under `Evens` in a storage. -/
def Shape.evens (id : StorageId) : Shape :=
  .array (.shape (.union (.shape Leaf.even.shape) [.reference ⟨id, "Evens"⟩]))

/-- A store with one storage, finished with nothing but the shape of nested lists. -/
def Store.ofEvens : Store := ⟨[.finished [("Evens", .of (.evens 0))]]⟩

namespace Store

/-- The function in the graph of nested lists explains what it refuses. -/
theorem explains_evens {node : Target} (reaches : ofEvens.Reaches (.shape (.evens 0)) node) :
    node.Explains := by
  have stands : ofEvens.resolve ⟨0, "Evens"⟩ = .ok (.of (.evens 0)) := rfl
  have among : node = .shape (.evens 0) ∨
      node = .shape (.union (.shape Leaf.even.shape) [.reference ⟨0, "Evens"⟩]) ∨
      node = .shape Leaf.even.shape ∨ node = .reference ⟨0, "Evens"⟩ := by
    induction reaches with
    | refl => exact .inl rfl
    | tail _ leads ih =>
      rcases ih with rfl | rfl | rfl | rfl
      · obtain ⟨⟨⟩⟩ := leads
        exact .inr (.inl rfl)
      · rcases leads with ⟨_ | _ | member⟩
        rcases List.mem_pair.mp member with rfl | rfl
        · exact .inr (.inr (.inl rfl))
        · exact .inr (.inr (.inr rfl))
      · obtain ⟨⟨⟩⟩ := leads
      · cases leads with
        | part has => cases has
        | entry resolved =>
          obtain rfl := Except.ok.inj (stands.symm.trans resolved)
          exact .inl rfl
  rcases among with rfl | rfl | rfl | rfl
  · trivial
  · trivial
  · intro candidate
    by_cases even : Leaf.isEvenInteger candidate = true
    · exact .inl (if_pos even)
    · right
      beta_reduce
      rw [if_neg even]
      exact Nat.one_pos
  · trivial

/-- An odd number in an inner list has three mismatches: the inner list is no even number, and the
number is none and no list either. The report of the failed assertion is the text of the three
diagnostics. -/
theorem entry_points_agree_on_odd_number :
    let value : Json := .array [.number (.integer ⟨2, by decide⟩),
      .array [.number (.integer ⟨3, by decide⟩)]]
    let outcome : Outcome := .inItems [(1, .inAlternatives [.wrongKind .number .array,
      .inItems [(0, .inAlternatives [.wrongKind .number .number, .wrongKind .array .number])]])]
    ofEvens.validate (.evens 0) value = .ok outcome ∧
      ¬ ofEvens.isValid (.evens 0) value = .ok true ∧
      ∃ diagnostics error, ofEvens.check (.evens 0) "numbers" value = .ok (.error diagnostics) ∧
        ofEvens.assert (.evens 0) "numbers" value = .ok (.error error) ∧
        diagnostics.length = 3 ∧ diagnostics.text = error.report := by
  intro value outcome
  have returned : ofEvens.validate (.evens 0) value = .ok outcome := rfl
  obtain ⟨agree, _, _, refused⟩ :=
    entry_points_agree (fun _ => explains_evens) returned {} "numbers"
  obtain ⟨diagnostics, error, checked, asserted, counted, text, same⟩ := refused nofun
  have kept : error.outcome = outcome := Except.ok.inj (same.symm.trans returned)
  refine ⟨returned, ?_, diagnostics, error, checked, asserted, ?_, text⟩
  · exact fun valid => absurd ((agree.out 1 2).mp valid) (by decide)
  · rw [counted, kept]
    rfl

end Store

end Conform

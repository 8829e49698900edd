import Conform.Proofs.Comparison
import Conform.Proofs.Graph
import Conform.Proofs.Simulation
/-!
# The order of declarations

Nothing but the order of a report depends on the order in which the properties of objects and the
alternatives of unions are declared. Two graphs that differ in these orders, at any number of
places, take different ways through a candidate: the one may stop at an alternative that the other
one never gets to. Still both find the candidate valid or neither does, since an alternative that
is valid in the one has its like among the alternatives of the other, and where every alternative
is refused, each one was tried. So the mismatches are the same ones in some order.
-/

namespace Conform

open List (Forall₂)

/-- A target with properties and alternatives in other orders, in itself and at any depth. -/
inductive Target.Reorders : Target → Target → Prop
  /-- A reference stays. -/
  | reference {reference : Reference} : Reorders (.reference reference) (.reference reference)
  /-- A kind stays. -/
  | kind {expected : Kind} : Reorders (.shape (.kind expected)) (.shape (.kind expected))
  /-- A value stays. -/
  | literal {expected : Literal} :
      Reorders (.shape (.literal expected)) (.shape (.literal expected))
  /-- The properties of an object are moved, and each of them is reordered. -/
  | object {properties moved properties' : List Property} (perm : properties.Perm moved)
      (each : Forall₂ (Property.Alike Reorders) moved properties') :
      Reorders (.shape (.object properties)) (.shape (.object properties'))
  /-- The item of an array is reordered. -/
  | array {item item' : Target} (reorders : Reorders item item') :
      Reorders (.shape (.array item)) (.shape (.array item'))
  /-- The alternatives of a union are moved, and each of them is reordered. -/
  | union {first first' : Target} {rest moved rest' : List Target}
      (perm : (first :: rest).Perm moved) (each : Forall₂ Reorders moved (first' :: rest')) :
      Reorders (.shape (.union first rest)) (.shape (.union first' rest'))
  /-- A function stays. -/
  | custom {judge : Option Json → Outcome} :
      Reorders (.shape (.custom judge)) (.shape (.custom judge))
  /-- The shape inside another one is reordered. -/
  | wrapped {inner inner' : Shape} (reorders : Reorders (.shape inner) (.shape inner')) :
      Reorders (.shape (.wrapped inner)) (.shape (.wrapped inner'))
  /-- The root of a finished registry is reordered. -/
  | finished {storage : StorageId} {root root' : Shape}
      (reorders : Reorders (.shape root) (.shape root')) :
      Reorders (.shape (.finished storage root)) (.shape (.finished storage root'))

/-- What a reference stands for in one store is a reordering of what it stands for in the other
one. -/
def Store.Reorders (first second : Store) : Prop :=
  ∀ {reference : Reference} {shape shape' : HeldShape}, first.resolve reference = .ok shape →
    second.resolve reference = .ok shape' →
      (Target.shape shape.value).Reorders (.shape shape'.value)

namespace Outcome.Compares

/-- An outcome has its own mismatches. -/
protected theorem refl (outcome : Outcome) : outcome.Compares .permuted outcome :=
  ⟨.rfl, .refl _⟩

/-- Having the same mismatches is transitive. -/
protected theorem trans {outcome middle last : Outcome} (first : outcome.Compares .permuted middle)
    (second : middle.Compares .permuted last) : outcome.Compares .permuted last :=
  ⟨second.valid_iff.trans first.valid_iff, List.Perm.trans first.located second.located⟩

/-- Moving properties moves their mismatches. -/
theorem ofProperties_perm (outcomes : Property → Outcome) {properties permuted : List Property}
    (moved : properties.Perm permuted) :
    (Outcome.ofProperties (mismatches Property.name outcomes properties)).Compares .permuted
      (Outcome.ofProperties (mismatches Property.name outcomes permuted)) := by
  constructor
  · rw [ofProperties_mismatches_eq_valid_iff, ofProperties_mismatches_eq_valid_iff]
    simp only [moved.mem_iff]
  · rw [located_ofProperties, located_ofProperties]
    exact moved.flatMap_right _

/-- Moving alternatives moves their mismatches. -/
theorem inAlternatives_perm {parts permuted : List Outcome} (moved : parts.Perm permuted) :
    (Outcome.inAlternatives parts).Compares .permuted (.inAlternatives permuted) := by
  constructor
  · exact ⟨nofun, nofun⟩
  · rw [located_inAlternatives, located_inAlternatives]
    exact moved.flatMap_right _

end Outcome.Compares

namespace Store

/-- Outcomes of the same candidate under the same target have the same mismatches. -/
theorem Yields.compares {store : Store} {target : Target} {candidate : Option Json}
    {outcome outcome' : Outcome} (yields : store.Yields target candidate outcome)
    (yields' : store.Yields target candidate outcome') : outcome.Compares .permuted outcome' := by
  obtain rfl := yields.unique yields'
  exact .refl _

variable {first second : Store}

/-- Whatever two reordered targets yield has the same mismatches. The induction is on what the
first one yields; where it stops at an alternative, the second one cannot have refused all. -/
theorem compares_of_reorders (reorders : first.Reorders second) {target target' : Target}
    {candidate : Option Json} {outcome outcome' : Outcome} (related : target.Reorders target')
    (yields : first.Yields target candidate outcome)
    (yields' : second.Yields target' candidate outcome') :
    outcome.Compares .permuted outcome' := by
  induction yields generalizing target' outcome' with
  | kind same =>
    cases related
    exact (Yields.kind same).compares yields'
  | wrongKind different =>
    cases related
    exact (Yields.wrongKind different).compares yields'
  | literal accepted =>
    cases related
    exact (Yields.literal accepted).compares yields'
  | wrongValue refused =>
    cases related
    exact (Yields.wrongValue refused).compares yields'
  | @object properties members outcomes _ ih =>
    cases related with
    | @object _ moved properties' perm each =>
      cases yields' with
      | notObject different => exact absurd rfl different
      | object outcomes' each' =>
        have compared : Forall₂ (fun property property' => property'.name = property.name ∧
            (outcomes property).Compares .permuted (outcomes' property')) moved properties' := by
          refine (forall₂_with_mem each).imp ?_
          rintro _ _ ⟨listed, listed', ⟨related⟩⟩
          exact ⟨rfl, ih _ (perm.mem_iff.mpr listed) related (each' _ listed')⟩
        exact (Outcome.Compares.ofProperties_perm outcomes perm).trans (.ofProperties _ _ compared)
  | notObject different =>
    cases related
    exact (Yields.notObject different).compares yields'
  | @array item elements outcomes _ ih =>
    cases related with
    | array related =>
      cases yields' with
      | notArray different => exact absurd rfl different
      | array outcomes' each' =>
        apply Outcome.Compares.ofItems
        exact List.forall₂_same.mpr fun element member =>
          ih element member related (each' element member)
  | notArray different =>
    cases related
    exact (Yields.notArray different).compares yields'
  | @chosen head choice rest before after candidate split outcomes _ _ _ _ ih =>
    cases related with
    | @union _ head' _ moved rest' perm each =>
      cases yields' with
      | chosen => exact .refl _
      | refused outcomes' each' refused' =>
        have listed : choice ∈ moved := perm.mem_iff.mp (split ▸ by simp)
        obtain ⟨choice', listed', related⟩ := exists_matched_of_mem each.flip listed
        have compared := ih related (each' choice' listed')
        exact absurd (compared.valid_iff.mpr rfl) (refused' choice' listed')
  | @refused head rest candidate outcomes _ refused ih =>
    cases related with
    | @union _ head' _ moved rest' perm each =>
      cases yields' with
      | @chosen _ choice' _ _ _ _ split' _ _ _ taken' =>
        have listed' : choice' ∈ head' :: rest' := split' ▸ by simp
        obtain ⟨choice, listed, related⟩ := exists_matched_of_mem each listed'
        have member : choice ∈ head :: rest := perm.mem_iff.mpr listed
        have compared := ih choice member related taken'
        exact absurd (compared.valid_iff.mp rfl) (refused choice member)
      | refused outcomes' each' _ =>
        have compared : Forall₂ (Outcome.Compares .permuted) (moved.map outcomes)
            ((head' :: rest').map outcomes') := by
          rw [List.forall₂_map_left_iff, List.forall₂_map_right_iff]
          refine (forall₂_with_mem each).imp ?_
          rintro target target' ⟨listed, listed', related⟩
          exact ih target (perm.mem_iff.mpr listed) related (each' target' listed')
        exact (Outcome.Compares.inAlternatives_perm (perm.map outcomes)).trans
          (.inAlternatives compared)
  | custom =>
    cases related
    exact Yields.custom.compares yields'
  | wrapped _ ih =>
    cases related with
    | wrapped related =>
      cases yields' with
      | wrapped inside' => exact ih related inside'
  | finished _ ih =>
    cases related with
    | finished related =>
      cases yields' with
      | finished inside' => exact ih related inside'
  | reference resolved _ ih =>
    cases related with
    | reference =>
      cases yields' with
      | reference resolved' inside' => exact ih (reorders resolved resolved') inside'

/-- Where the evaluations of two graphs both return, and the graphs differ in nothing but the order
of properties and alternatives, in the root and in what is registered, the candidate is valid in
both or in neither, and under every name the diagnostics of the one are those of the other in some
order. -/
theorem declaration_order_changes_order_only (reorders : first.Reorders second)
    {shape shape' : Shape} (related : (Target.shape shape).Reorders (.shape shape'))
    {candidate : Option Json} {outcome outcome' : Outcome}
    (returned : first.evaluate shape candidate = .ok outcome)
    (returned' : second.evaluate shape' candidate = .ok outcome') :
    (outcome = .valid ↔ outcome' = .valid) ∧ ∀ (describer : Describer) (root : String),
      (((describer.diagnostics outcome root).map Diagnostics.toList).getD []).Perm
        (((describer.diagnostics outcome' root).map Diagnostics.toList).getD []) := by
  have compares := compares_of_reorders reorders related (first.evaluate_eq_ok_iff.mp returned)
    (second.evaluate_eq_ok_iff.mp returned')
  constructor
  · exact compares.valid_iff.symm
  · intro describer root
    rw [describer.toList_diagnostics, describer.toList_diagnostics]
    exact List.Perm.map _ compares.located

/-- A chain whose links have the wrong tags has the same mismatches if links are declared with the
next link first, and its alternatives the other way around. -/
theorem chains_in_another_order :
    let chain : Shape := .chain 0 (.kind .string)
    let reordered : Shape := .object [.field "next" (.shape (.union (.reference ⟨0, "Chain"⟩)
      [.shape .null, .shape .undefined])), .field "tag" (.shape (.kind .string))]
    let next : Json := .object [("tag", .null)]
    let outcome : Outcome := .inProperties [("tag", .wrongKind .string .undefined),
      ("next", .inAlternatives [.wrongValue .undefined (.json next),
        .wrongValue (.json .null) (.json next),
        .inProperties [("tag", .wrongKind .string .null)]])]
    let outcome' : Outcome := .inProperties [("next", .inAlternatives
      [.inProperties [("tag", .wrongKind .string .null)], .wrongValue (.json .null) (.json next),
        .wrongValue .undefined (.json next)]), ("tag", .wrongKind .string .undefined)]
    (Store.ofChains chain).evaluate chain (some (.object [("next", next)])) = .ok outcome ∧
      (Store.ofChains reordered).evaluate reordered (some (.object [("next", next)])) =
        .ok outcome' ∧
      (((({} : Describer).diagnostics outcome "value").map Diagnostics.toList).getD []).Perm
        (((({} : Describer).diagnostics outcome' "value").map Diagnostics.toList).getD []) := by
  intro chain reordered next outcome outcome'
  have related : (Target.shape chain).Reorders (.shape reordered) := by
    have next : (Target.shape (.optional (.reference ⟨0, "Chain"⟩))).Reorders
        (.shape (.union (.reference ⟨0, "Chain"⟩) [.shape .null, .shape .undefined])) :=
      .union (List.reverse_perm _).symm
        (.cons .reference (.cons .literal (.cons .literal .nil)))
    exact .object (.swap _ _ []) (.cons (.mk next) (.cons (.mk .kind) .nil))
  have reorders : (Store.ofChains chain).Reorders (Store.ofChains reordered) := by
    intro reference shape shape' resolved resolved'
    rw [eq_of_resolve_ofChains resolved, eq_of_resolve_ofChains resolved']
    exact related
  have returned : (Store.ofChains chain).evaluate chain (some (.object [("next", next)])) =
      .ok outcome := rfl
  have returned' : (Store.ofChains reordered).evaluate reordered
      (some (.object [("next", next)])) = .ok outcome' := rfl
  have same := declaration_order_changes_order_only reorders related returned returned'
  exact ⟨returned, returned', same.2 {} "value"⟩

end Store

end Conform

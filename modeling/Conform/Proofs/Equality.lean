import Conform.Proofs.KeyOrder
import Conform.Proofs.Matching
/-!
# Equality and matching

`==` compares values, literals and outcomes part by part. It reads the same from both sides and
passes on, and everything equals itself but the undefined number and the outcomes with that number
in a leaf. Between values it differs from matching at numbers only: it takes the two zeros for
equal, and it keeps an integer apart from the binary64 number with the same value. Where neither
makes a difference, values are equal exactly if they match.
-/

namespace Conform

open List (Forall₂)

namespace Binary64

/-- The magnitude of a number is that of its value. -/
theorem natAbs_value (number : Binary64) : number.value.natAbs = number.units := by
  rcases number.value_cases with same | opposite
  · rw [same, Int.natAbs_natCast]
  · rw [opposite, Int.natAbs_neg, Int.natAbs_natCast]

/-- Numbers of the same value have the same magnitude. -/
theorem units_eq_of_value_eq {left right : Binary64} (same : left.value = right.value) :
    left.units = right.units := by
  rw [← natAbs_value, same, natAbs_value]

/-- Numeric equality is that of values. -/
theorem numericEq_iff {left right : Binary64} :
    left.numericEq right = true ↔ left.value = right.value := by
  simp only [numericEq, Bool.and_eq_true, Bool.or_eq_true, beq_iff_eq]
  constructor
  · rintro ⟨magnitude, sign | zero⟩
    · rw [value, value, magnitude, sign]
    · rw [value, value, ← magnitude, zero, Int.natCast_zero, Int.neg_zero, ite_self, ite_self]
  · intro same
    have magnitude := units_eq_of_value_eq same
    refine ⟨magnitude, ?_⟩
    rw [value, value, ← magnitude] at same
    cases sign : left.negative <;> cases sign' : right.negative <;>
      simp only [sign, sign', Bool.false_eq_true, ite_true, ite_false] at same
    · exact .inl rfl
    · exact .inr (by omega)
    · exact .inr (by omega)
    · exact .inl rfl

end Binary64

namespace Number

/-- Whether a number is an integer. -/
def isInteger : Number → Bool
  | .integer _ => true
  | .double _ => false

/-- Both are integers, or both are binary64 numbers. -/
def SameForm (left right : Number) : Prop := left.isInteger = right.isInteger

/-- The two zeros of the binary64 format, one with a sign and one without. -/
def OppositeZeros : Number → Number → Prop
  | .double left, .double right =>
    left.units = 0 ∧ right.units = 0 ∧ left.negative ≠ right.negative
  | _, _ => False

/-- Numbers are equal if they have the same form and the same value. -/
theorem beq_iff {left right : Number} :
    (left == right) = true ↔ left.SameForm right ∧ left.value = right.value := by
  match left, right with
  | .integer left, .integer right =>
    change (left == right) = true ↔ _
    rw [beq_iff_eq, integer_eq_iff]
    exact ⟨fun same => ⟨rfl, same⟩, And.right⟩
  | .integer _, .double _ => exact iff_of_false Bool.false_ne_true fun same => nomatch same.1
  | .double _, .integer _ => exact iff_of_false Bool.false_ne_true fun same => nomatch same.1
  | .double left, .double right =>
    change left.numericEq right = true ↔ _
    rw [Binary64.numericEq_iff]
    exact ⟨fun same => ⟨rfl, same⟩, And.right⟩

instance : EquivBEq Number where
  rfl := beq_iff.mpr ⟨rfl, rfl⟩
  symm equal := by
    obtain ⟨form, same⟩ := beq_iff.mp equal
    exact beq_iff.mpr ⟨form.symm, same.symm⟩
  trans equal equal' := by
    obtain ⟨form, same⟩ := beq_iff.mp equal
    obtain ⟨form', same'⟩ := beq_iff.mp equal'
    exact beq_iff.mpr ⟨form.trans form', same.trans same'⟩

/-- Equal numbers coincide, unless they are the two zeros. -/
theorem coincides_of_beq {left right : Number} (equal : (left == right) = true)
    (zeros : ¬ left.OppositeZeros right) : left.Coincides right := by
  obtain ⟨form, same⟩ := beq_iff.mp equal
  refine ⟨same, ?_⟩
  match left, right with
  | .integer _, .integer _ => exact .rfl
  | .integer _, .double _ => cases form
  | .double _, .integer _ => cases form
  | .double left, .double right =>
    have magnitude : left.units = right.units := Binary64.units_eq_of_value_eq same
    have sign (zero : left.units = 0) : left.negative = right.negative :=
      Classical.byContradiction fun other => zeros ⟨zero, magnitude ▸ zero, other⟩
    constructor
    · intro ⟨negative, zero⟩
      exact ⟨sign zero ▸ negative, magnitude ▸ zero⟩
    · intro ⟨negative, zero⟩
      have zero' : left.units = 0 := magnitude.trans zero
      exact ⟨(sign zero').trans negative, zero'⟩

/-- Numbers of one form that meet are equal. -/
theorem beq_of_meets {left right : Number} (meets : left.Meets right)
    (form : left.SameForm right) : (left == right) = true := by
  cases meets with
  | coincides same => exact beq_iff.mpr ⟨form, same.1⟩
  | rounded _ _ => cases form
  | rounded' _ _ => cases form

end Number

namespace Json

/-- What holds of every scalar, and of a value whenever it holds of all that is listed in it, holds
of every value. -/
theorem inductionOnContents {motive : Json → Prop} (null : motive .null)
    (bool : ∀ value, motive (.bool value)) (number : ∀ value, motive (.number value))
    (string : ∀ value, motive (.string value))
    (array : ∀ elements : List Json, (∀ element ∈ elements, motive element) →
      motive (.array elements))
    (object : ∀ members : List (String × Json), (∀ member ∈ members, motive member.2) →
      motive (.object members)) : ∀ value, motive value
  | .null => null
  | .bool value => bool value
  | .number value => number value
  | .string value => string value
  | .array elements => array elements fun element _ =>
    inductionOnContents null bool number string array object element
  | .object members => object members fun member _ =>
    inductionOnContents null bool number string array object member.2
termination_by value => sizeOf value
decreasing_by
  · have inside := List.sizeOf_lt_of_mem ‹_›
    simp only [Json.array.sizeOf_spec]
    omega
  · have inside := sizeOf_snd_lt_of_mem ‹_›
    simp only [Json.object.sizeOf_spec]
    omega

/-- Arrays are equal if their elements are, one by one. -/
theorem array_beq_iff {elements elements' : List Json} :
    (Json.array elements == .array elements') = true ↔
      Forall₂ (fun element element' => (element == element') = true) elements elements' :=
  walk_iff_forall₂ beqElements beq rfl (fun _ _ => rfl) (fun _ _ => rfl) (fun _ _ _ _ => rfl)
    elements elements'

/-- Objects are equal if they have the same keys in the same order, with equal members. -/
theorem object_beq_iff {members members' : List (String × Json)} :
    (Json.object members == .object members') = true ↔
      Forall₂ (fun member member' => member.1 = member'.1 ∧ (member.2 == member'.2) = true)
        members members' :=
  walk_entries_iff_forall₂ beqMembers beq rfl (fun _ _ => rfl) (fun _ _ => rfl)
    (fun _ _ _ _ _ _ => rfl) members members'

/-- How two equal values are made up: the same scalars, equal numbers or equal parts. -/
inductive EqualParts : Json → Json → Prop
  /-- The same `null`. -/
  | null : EqualParts .null .null
  /-- The same truth value. -/
  | bool {value : Bool} : EqualParts (.bool value) (.bool value)
  /-- Equal numbers. -/
  | number {value value' : Number} (equal : (value == value') = true) :
      EqualParts (.number value) (.number value')
  /-- The same string. -/
  | string {value : String} : EqualParts (.string value) (.string value)
  /-- Equal elements, one by one. -/
  | array {elements elements' : List Json}
      (each : Forall₂ (fun element element' => (element == element') = true) elements elements') :
      EqualParts (.array elements) (.array elements')
  /-- Equal members under the same keys, one by one. -/
  | object {members members' : List (String × Json)}
      (each : Forall₂ (fun member member' => member.1 = member'.1 ∧
        (member.2 == member'.2) = true) members members') :
      EqualParts (.object members) (.object members')

/-- Values are equal exactly if their parts are. -/
theorem beq_iff_equalParts {value value' : Json} :
    (value == value') = true ↔ value.EqualParts value' := by
  constructor
  · intro equal
    cases value with
    | null =>
      cases value' with
      | null => exact .null
      | _ => cases equal
    | bool left =>
      cases value' with
      | bool right =>
        obtain rfl : left = right := beq_iff_eq.mp equal
        exact .bool
      | _ => cases equal
    | number left =>
      cases value' with
      | number right => exact .number equal
      | _ => cases equal
    | string left =>
      cases value' with
      | string right =>
        obtain rfl : left = right := beq_iff_eq.mp equal
        exact .string
      | _ => cases equal
    | array left =>
      cases value' with
      | array right => exact .array (array_beq_iff.mp equal)
      | _ => cases equal
    | object left =>
      cases value' with
      | object right => exact .object (object_beq_iff.mp equal)
      | _ => cases equal
  · intro parts
    cases parts with
    | null => rfl
    | @bool value => exact beq_self_eq_true value
    | number equal => exact equal
    | @string value => exact beq_self_eq_true value
    | array each => exact array_beq_iff.mpr each
    | object each => exact object_beq_iff.mpr each

/-- Equality of values is an equivalence, by induction on all that is listed: it looks at every
member, also where a key occurs again and selects only the first one. -/
instance : EquivBEq Json where
  rfl {value} := by
    rw [beq_iff_equalParts]
    induction value using inductionOnContents with
    | null => exact .null
    | bool _ => exact .bool
    | number number => exact .number (BEq.refl number)
    | string _ => exact .string
    | array elements ih =>
      exact .array (List.forall₂_same.mpr fun element listed =>
        beq_iff_equalParts.mpr (ih element listed))
    | object members ih =>
      exact .object (List.forall₂_same.mpr fun member listed =>
        ⟨rfl, beq_iff_equalParts.mpr (ih member listed)⟩)
  symm {value value'} equal := by
    induction value using inductionOnContents generalizing value' with
    | null | bool _ | string _ =>
      cases beq_iff_equalParts.mp equal
      exact equal
    | number _ =>
      cases beq_iff_equalParts.mp equal with
      | number same => exact beq_iff_equalParts.mpr (.number (BEq.symm same))
    | array _ ih =>
      cases beq_iff_equalParts.mp equal with
      | array each =>
        exact array_beq_iff.mpr (forall₂_swap each fun element listed _ same =>
          ih element listed same)
    | object _ ih =>
      cases beq_iff_equalParts.mp equal with
      | object each =>
        exact object_beq_iff.mpr (forall₂_swap each fun member listed _ same =>
          ⟨same.1.symm, ih member listed same.2⟩)
  trans {value value' value''} equal equal' := by
    induction value using inductionOnContents generalizing value' value'' with
    | null | bool _ | string _ =>
      cases beq_iff_equalParts.mp equal
      exact equal'
    | number _ =>
      cases beq_iff_equalParts.mp equal with
      | number same =>
        cases beq_iff_equalParts.mp equal' with
        | number same' => exact beq_iff_equalParts.mpr (.number (BEq.trans same same'))
    | array _ ih =>
      cases beq_iff_equalParts.mp equal with
      | array each =>
        cases beq_iff_equalParts.mp equal' with
        | array each' =>
          exact array_beq_iff.mpr (forall₂_trans each each' fun element listed _ _ same same' =>
            ih element listed same same')
    | object _ ih =>
      cases beq_iff_equalParts.mp equal with
      | object each =>
        cases beq_iff_equalParts.mp equal' with
        | object each' =>
          exact object_beq_iff.mpr (forall₂_trans each each' fun member listed _ _ same same' =>
            ⟨same.1.trans same'.1, ih member listed same.2 same'.2⟩)

/-- Members that are related one by one, under the same keys, are related under every key. -/
theorem rel_lookup {Related : Json → Json → Prop} {members members' : List (String × Json)}
    (each : Forall₂ (fun member member' => member.1 = member'.1 ∧ Related member.2 member'.2)
      members members') (key : String) :
    Option.Rel Related (members.lookup key) (members'.lookup key) := by
  induction each with
  | nil => exact .none
  | @cons member member' _ _ first _ ih =>
    obtain ⟨same, related⟩ := first
    rw [List.lookup_cons, List.lookup_cons, ← same]
    cases key == member.1 with
    | true => exact .some related
    | false => exact ih

/-- Equal values are alike, with equal numbers. -/
theorem alike_of_beq {value value' : Json} (equal : (value == value') = true) :
    value.Alike (fun left right => (left == right) = true) value' := by
  induction value using inductionOnParts generalizing value' with
  | step whole ih =>
    cases beq_iff_equalParts.mp equal with
    | null => exact .null
    | bool => exact .bool
    | number same => exact .number same
    | string => exact .string
    | array each =>
      refine .array ((forall₂_with_mem each).imp ?_)
      rintro element element' ⟨listed, _, same⟩
      obtain ⟨step, selected⟩ := exists_select?_of_mem listed
      exact ih step element selected same
    | object each =>
      exact .object fun key => rel_imp (rel_lookup each key) fun member _ found _ same =>
        ih (.field key) member found same

/-- Objects in order that have something under the same keys have it at the same places. -/
theorem forall₂_of_rel {Related : Json → Json → Prop} {members members' : List (String × Json)}
    (ordered : (Json.object members).InOrder) (ordered' : (Json.object members').InOrder)
    (each : ∀ key, Option.Rel Related (members.lookup key) (members'.lookup key)) :
    Forall₂ (fun member member' => member.1 = member'.1 ∧ Related member.2 member'.2)
      members members' := by
  have distinct := ordered.distinctKeys.here members rfl
  have distinct' := ordered'.distinctKeys.here members' rfl
  have keys : members.map Prod.fst = members'.map Prod.fst :=
    (keys_perm_of_rel distinct distinct' each).eq_of_pairwise
      (fun _ _ _ _ below above => (String.lt_asymm below above).elim)
      (ordered.here members rfl) (ordered'.here members' rfl)
  rw [← List.forall₂_eq_eq_eq, List.forall₂_map_left_iff, List.forall₂_map_right_iff] at keys
  refine (forall₂_with_mem keys).imp ?_
  rintro ⟨key, value⟩ ⟨_, value'⟩ ⟨listed, listed', rfl⟩
  have related := each key
  rw [(lookup_eq_some_iff_mem distinct).mpr listed,
    (lookup_eq_some_iff_mem distinct').mpr listed'] at related
  cases related with
  | some here => exact ⟨rfl, here⟩

/-- Values in order that are alike, with equal numbers, are equal. -/
theorem beq_of_alike {value value' : Json} (ordered : value.InOrder) (ordered' : value'.InOrder)
    (alike : value.Alike (fun left right => (left == right) = true) value') :
    (value == value') = true := by
  induction value using inductionOnContents generalizing value' with
  | null | bool _ | string _ =>
    cases alike
    exact BEq.rfl
  | number _ =>
    cases alike with
    | number related => exact beq_iff_equalParts.mpr (.number related)
  | array _ ih =>
    cases alike with
    | array each =>
      refine array_beq_iff.mpr ((forall₂_with_mem each).imp ?_)
      rintro element element' ⟨listed, listed', related⟩
      exact ih element listed (ordered.element listed) (ordered'.element listed') related
  | object _ ih =>
    cases alike with
    | object each =>
      refine object_beq_iff.mpr ((forall₂_with_mem (forall₂_of_rel ordered ordered' each)).imp ?_)
      rintro member member' ⟨listed, listed', same, related⟩
      exact ⟨same, ih member listed (ordered.listed listed) (ordered'.listed listed') related⟩

end Json

namespace NonFinite

/-- Equal numbers are the same, and the undefined number equals none. -/
theorem beq_iff {left right : NonFinite} :
    (left == right) = true ↔ left = right ∧ left ≠ .nan := by
  constructor
  · intro equal
    match left, right, equal with
    | .infinity, .infinity, _ => exact ⟨rfl, nofun⟩
    | .negativeInfinity, .negativeInfinity, _ => exact ⟨rfl, nofun⟩
  · rintro ⟨rfl, defined⟩
    cases left with
    | nan => exact absurd rfl defined
    | infinity => rfl
    | negativeInfinity => rfl

end NonFinite

namespace Literal

/-- How two equal literals are made up. -/
inductive EqualParts : Literal → Literal → Prop
  /-- The absent value. -/
  | undefined : EqualParts .undefined .undefined
  /-- Equal values. -/
  | json {value value' : Json} (equal : (value == value') = true) :
      EqualParts (.json value) (.json value')
  /-- The same number, which is not the undefined one. -/
  | nonFinite {number : NonFinite} (defined : number ≠ .nan) :
      EqualParts (.nonFinite number) (.nonFinite number)

/-- Literals are equal exactly if their parts are. -/
theorem beq_iff_equalParts {left right : Literal} :
    (left == right) = true ↔ left.EqualParts right := by
  constructor
  · intro equal
    match left, right, equal with
    | .undefined, .undefined, _ => exact .undefined
    | .json _, .json _, equal => exact .json equal
    | .nonFinite left, .nonFinite right, equal =>
      obtain ⟨rfl, defined⟩ := NonFinite.beq_iff.mp equal
      exact .nonFinite defined
  · intro parts
    cases parts with
    | undefined => rfl
    | json equal => exact equal
    | nonFinite defined => exact NonFinite.beq_iff.mpr ⟨rfl, defined⟩

instance : PartialEquivBEq Literal where
  symm equal := by
    rw [beq_iff_equalParts] at equal ⊢
    cases equal with
    | undefined => exact .undefined
    | json same => exact .json (BEq.symm same)
    | nonFinite defined => exact .nonFinite defined
  trans equal equal' := by
    rw [beq_iff_equalParts] at equal equal' ⊢
    cases equal with
    | undefined => exact equal'
    | json same =>
      cases equal' with
      | json same' => exact .json (BEq.trans same same')
    | nonFinite _ => exact equal'

/-- The undefined number is the only literal that does not equal itself. -/
theorem beq_self_iff {literal : Literal} :
    (literal == literal) = true ↔ literal ≠ .nonFinite .nan := by
  rw [beq_iff_equalParts]
  cases literal with
  | undefined => exact iff_of_true .undefined nofun
  | json value => exact iff_of_true (.json BEq.rfl) nofun
  | nonFinite number =>
    constructor
    · intro parts other
      cases parts with
      | nonFinite defined => exact defined (Literal.nonFinite.inj other)
    · intro other
      exact .nonFinite fun same => other (congrArg Literal.nonFinite same)

end Literal

/-- A mismatch of value with the undefined number on one of its sides. -/
def Mismatch.HasNan : Mismatch → Prop
  | .kind _ _ => False
  | .value expected actual => expected = .nonFinite .nan ∨ actual = .nonFinite .nan

namespace Outcome

/-- How two equal outcomes are made up: equal leaves or equal parts. -/
inductive EqualParts : Outcome → Outcome → Prop
  /-- No mismatch. -/
  | valid : EqualParts .valid .valid
  /-- The same mismatch of kind. -/
  | wrongKind {expected actual : Kind} :
      EqualParts (.wrongKind expected actual) (.wrongKind expected actual)
  /-- Equal literals. -/
  | wrongValue {expected actual expected' actual' : Literal}
      (equal : (expected == expected') = true) (equal' : (actual == actual') = true) :
      EqualParts (.wrongValue expected actual) (.wrongValue expected' actual')
  /-- Equal properties of the same names, one by one. -/
  | inProperties {properties properties' : List (String × Outcome)}
      (each : Forall₂ (fun entry entry' => entry.1 = entry'.1 ∧ (entry.2 == entry'.2) = true)
        properties properties') : EqualParts (.inProperties properties) (.inProperties properties')
  /-- Equal alternatives, one by one. -/
  | inAlternatives {parts parts' : List Outcome}
      (each : Forall₂ (fun part part' => (part == part') = true) parts parts') :
      EqualParts (.inAlternatives parts) (.inAlternatives parts')
  /-- Equal items at the same indices, one by one. -/
  | inItems {items items' : List (Nat × Outcome)}
      (each : Forall₂ (fun entry entry' => entry.1 = entry'.1 ∧ (entry.2 == entry'.2) = true)
        items items') : EqualParts (.inItems items) (.inItems items')

/-- Mismatches in properties are equal if the names are the same and the outcomes equal. -/
theorem inProperties_beq_iff {properties properties' : List (String × Outcome)} :
    (inProperties properties == .inProperties properties') = true ↔
      Forall₂ (fun entry entry' => entry.1 = entry'.1 ∧ (entry.2 == entry'.2) = true)
        properties properties' := by
  change beq _ _ = true ↔ _
  rw [beq]
  exact walk_entries_iff_forall₂ beqProperties beq (by rw [beqProperties])
    (fun _ _ => by simp only [beqProperties]) (fun _ _ => by simp only [beqProperties])
    (fun _ _ _ _ _ _ => by rw [beqProperties]) properties properties'

/-- Mismatches of alternatives are equal if the outcomes are. -/
theorem inAlternatives_beq_iff {parts parts' : List Outcome} :
    (inAlternatives parts == .inAlternatives parts') = true ↔
      Forall₂ (fun part part' => (part == part') = true) parts parts' := by
  change beq _ _ = true ↔ _
  rw [beq]
  exact walk_iff_forall₂ beqParts beq (by rw [beqParts]) (fun _ _ => by simp only [beqParts])
    (fun _ _ => by simp only [beqParts]) (fun _ _ _ _ => by rw [beqParts]) parts parts'

/-- Mismatches in items are equal if the indices are the same and the outcomes equal. -/
theorem inItems_beq_iff {items items' : List (Nat × Outcome)} :
    (inItems items == .inItems items') = true ↔
      Forall₂ (fun entry entry' => entry.1 = entry'.1 ∧ (entry.2 == entry'.2) = true)
        items items' := by
  change beq _ _ = true ↔ _
  rw [beq]
  exact walk_entries_iff_forall₂ beqItems beq (by rw [beqItems])
    (fun _ _ => by simp only [beqItems]) (fun _ _ => by simp only [beqItems])
    (fun _ _ _ _ _ _ => by rw [beqItems]) items items'

/-- Outcomes are equal exactly if their parts are. -/
theorem beq_iff_equalParts {outcome outcome' : Outcome} :
    (outcome == outcome') = true ↔ outcome.EqualParts outcome' := by
  constructor
  · intro equal
    have computed : outcome.beq outcome' = true := equal
    cases outcome with
    | valid =>
      cases outcome' with
      | valid => exact .valid
      | _ => simp [beq] at computed
    | wrongKind expected actual =>
      cases outcome' with
      | wrongKind expected' actual' =>
        rw [beq, Bool.and_eq_true, beq_iff_eq, beq_iff_eq] at computed
        obtain ⟨rfl, rfl⟩ := computed
        exact .wrongKind
      | _ => simp [beq] at computed
    | wrongValue expected actual =>
      cases outcome' with
      | wrongValue expected' actual' =>
        rw [beq, Bool.and_eq_true] at computed
        exact .wrongValue computed.1 computed.2
      | _ => simp [beq] at computed
    | inProperties properties =>
      cases outcome' with
      | inProperties properties' => exact .inProperties (inProperties_beq_iff.mp equal)
      | _ => simp [beq] at computed
    | inAlternatives parts =>
      cases outcome' with
      | inAlternatives parts' => exact .inAlternatives (inAlternatives_beq_iff.mp equal)
      | _ => simp [beq] at computed
    | inItems items =>
      cases outcome' with
      | inItems items' => exact .inItems (inItems_beq_iff.mp equal)
      | _ => simp [beq] at computed
  · intro parts
    change outcome.beq outcome' = true
    cases parts with
    | valid => rw [beq]
    | wrongKind => rw [beq, beq_self_eq_true, beq_self_eq_true, Bool.and_self]
    | wrongValue equal equal' => rw [beq, equal, equal', Bool.and_self]
    | inProperties each => exact inProperties_beq_iff.mpr each
    | inAlternatives each => exact inAlternatives_beq_iff.mpr each
    | inItems each => exact inItems_beq_iff.mpr each

instance : PartialEquivBEq Outcome where
  symm {outcome outcome'} equal := by
    induction outcome using inductionOnParts generalizing outcome' with
    | valid | wrongKind _ _ =>
      cases beq_iff_equalParts.mp equal
      exact equal
    | wrongValue _ _ =>
      cases beq_iff_equalParts.mp equal with
      | wrongValue same same' =>
        exact beq_iff_equalParts.mpr (.wrongValue (BEq.symm same) (BEq.symm same'))
    | inProperties _ ih =>
      cases beq_iff_equalParts.mp equal with
      | inProperties each =>
        exact inProperties_beq_iff.mpr (forall₂_swap each fun entry listed _ same =>
          ⟨same.1.symm, ih entry listed same.2⟩)
    | inAlternatives _ ih =>
      cases beq_iff_equalParts.mp equal with
      | inAlternatives each =>
        exact inAlternatives_beq_iff.mpr (forall₂_swap each fun part listed _ same =>
          ih part listed same)
    | inItems _ ih =>
      cases beq_iff_equalParts.mp equal with
      | inItems each =>
        exact inItems_beq_iff.mpr (forall₂_swap each fun entry listed _ same =>
          ⟨same.1.symm, ih entry listed same.2⟩)
  trans {outcome outcome' outcome''} equal equal' := by
    induction outcome using inductionOnParts generalizing outcome' outcome'' with
    | valid | wrongKind _ _ =>
      cases beq_iff_equalParts.mp equal
      exact equal'
    | wrongValue _ _ =>
      cases beq_iff_equalParts.mp equal with
      | wrongValue first second =>
        cases beq_iff_equalParts.mp equal' with
        | wrongValue first' second' =>
          exact beq_iff_equalParts.mpr
            (.wrongValue (BEq.trans first first') (BEq.trans second second'))
    | inProperties _ ih =>
      cases beq_iff_equalParts.mp equal with
      | inProperties each =>
        cases beq_iff_equalParts.mp equal' with
        | inProperties each' =>
          exact inProperties_beq_iff.mpr (forall₂_trans each each'
            fun entry listed _ _ same same' =>
              ⟨same.1.trans same'.1, ih entry listed same.2 same'.2⟩)
    | inAlternatives _ ih =>
      cases beq_iff_equalParts.mp equal with
      | inAlternatives each =>
        cases beq_iff_equalParts.mp equal' with
        | inAlternatives each' =>
          exact inAlternatives_beq_iff.mpr (forall₂_trans each each'
            fun part listed _ _ same same' => ih part listed same same')
    | inItems _ ih =>
      cases beq_iff_equalParts.mp equal with
      | inItems each =>
        cases beq_iff_equalParts.mp equal' with
        | inItems each' =>
          exact inItems_beq_iff.mpr (forall₂_trans each each'
            fun entry listed _ _ same same' =>
              ⟨same.1.trans same'.1, ih entry listed same.2 same'.2⟩)

/-- The mismatches in the entries of a list are free of the undefined number if those in each entry
are. -/
theorem forall_not_hasNan_flatMap {κ : Type} (step : κ → Step) (entries : List (κ × Outcome)) :
    (∀ leaf ∈ entries.flatMap (fun entry => afterStep (step entry.1) entry.2.located),
      ¬ leaf.2.HasNan) ↔
    ∀ entry ∈ entries, ∀ leaf ∈ entry.2.located, ¬ leaf.2.HasNan := by
  simp only [List.forall_mem_flatMap, afterStep, List.forall_mem_map]

/-- An outcome equals itself exactly if none of its mismatches has the undefined number. -/
theorem beq_self_iff {outcome : Outcome} :
    (outcome == outcome) = true ↔ ∀ leaf ∈ outcome.located, ¬ leaf.2.HasNan := by
  induction outcome using inductionOnParts with
  | valid => exact iff_of_true (beq_iff_equalParts.mpr .valid) nofun
  | wrongKind expected actual =>
    exact iff_of_true (beq_iff_equalParts.mpr .wrongKind) (List.forall_mem_singleton.mpr id)
  | wrongValue expected actual =>
    change beq _ _ = true ↔ _
    rw [beq, located, List.forall_mem_singleton, Mismatch.HasNan, not_or, Bool.and_eq_true,
      Literal.beq_self_iff, Literal.beq_self_iff]
  | inProperties properties ih =>
    rw [inProperties_beq_iff, List.forall₂_same, located_inProperties,
      forall_not_hasNan_flatMap Step.field]
    exact forall₂_congr fun entry listed => (and_iff_right rfl).trans (ih entry listed)
  | inAlternatives parts ih =>
    rw [inAlternatives_beq_iff, List.forall₂_same, located_inAlternatives, List.forall_mem_flatMap]
    exact forall₂_congr ih
  | inItems items ih =>
    rw [inItems_beq_iff, List.forall₂_same, located_inItems, forall_not_hasNan_flatMap Step.index]
    exact forall₂_congr fun entry listed => (and_iff_right rfl).trans (ih entry listed)

end Outcome

/-- Numbers at one place of a value are the same. -/
theorem Json.CorrespondingNumbers.refl {Related : Number → Number → Prop}
    (reflexive : ∀ number, Related number number) (value : Json) :
    value.CorrespondingNumbers Related value := by
  intro steps left right reached reached'
  obtain rfl := Json.number.inj (Option.some.inj (reached.symm.trans reached'))
  exact reflexive left

namespace Literal

/-- Equal values match, unless one has a zero where the other one has the opposite zero. -/
theorem accepts_of_beq {expected actual : Json} (distinct : expected.DistinctKeys)
    (distinct' : actual.DistinctKeys) (equal : (expected == actual) = true)
    (zeros : expected.CorrespondingNumbers (fun left right => ¬ left.OppositeZeros right) actual) :
    (Literal.json expected).accepts (some actual) = true := by
  rw [accepts_json_iff distinct distinct']
  exact (Json.alike_of_beq equal).imp_corresponding zeros fun _ _ plain same =>
    .coincides (Number.coincides_of_beq same plain)

/-- Values that match are equal, unless one has an integer where the other one has a binary64
number. -/
theorem beq_of_accepts {expected actual : Json} (ordered : expected.InOrder)
    (ordered' : actual.InOrder) (accepted : (Literal.json expected).accepts (some actual) = true)
    (forms : expected.CorrespondingNumbers Number.SameForm actual) :
    (expected == actual) = true := by
  rw [accepts_json_iff ordered.distinctKeys ordered'.distinctKeys] at accepted
  exact Json.beq_of_alike ordered ordered' (accepted.imp_corresponding forms fun _ _ form meets =>
    Number.beq_of_meets meets form)

/-- The two zeros are equal, and neither matches the other one. -/
theorem beq_opposite_zeros (representable : Binary64.Representable 0) :
    let zero : Json := .number (.double ⟨false, 0, representable⟩)
    let negativeZero : Json := .number (.double ⟨true, 0, representable⟩)
    (zero == negativeZero) = true ∧ (Literal.json zero).accepts (some negativeZero) = false :=
  ⟨rfl, rfl⟩

/-- An integer matches the binary64 number with its value, and they are not equal. -/
theorem accepts_toBinary64 (number : WordInt) :
    let integer : Json := .number (.integer number)
    let double : Json := .number (.double number.toBinary64)
    (Literal.json integer).accepts (some double) = true ∧ (integer == double) = false :=
  ⟨beq_self_eq_true number.toBinary64, rfl⟩

/-- Equality reads the same from both sides and passes on, among literals and among outcomes, and an
outcome equals itself exactly if no mismatch in it has the undefined number. Equal values match if
no corresponding numbers are the two zeros, and matching values are equal if corresponding numbers
have the same form; neither condition can be left out. -/
theorem equality_and_matching :
    ((∀ left right : Literal, (left == right) = true → (right == left) = true) ∧
      ∀ left middle right : Literal, (left == middle) = true → (middle == right) = true →
        (left == right) = true) ∧
    ((∀ left right : Outcome, (left == right) = true → (right == left) = true) ∧
      ∀ left middle right : Outcome, (left == middle) = true → (middle == right) = true →
        (left == right) = true) ∧
    (∀ outcome : Outcome,
      (outcome == outcome) = true ↔ ∀ leaf ∈ outcome.located, ¬ leaf.2.HasNan) ∧
    (∀ expected actual : Json, expected.InOrder → actual.InOrder →
      ((expected == actual) = true →
        expected.CorrespondingNumbers (fun left right => ¬ left.OppositeZeros right) actual →
        (Literal.json expected).accepts (some actual) = true) ∧
      ((Literal.json expected).accepts (some actual) = true →
        expected.CorrespondingNumbers Number.SameForm actual → (expected == actual) = true)) ∧
    (∃ expected actual : Json, expected.InOrder ∧ actual.InOrder ∧ (expected == actual) = true ∧
      (Literal.json expected).accepts (some actual) = false) ∧
    ∃ expected actual : Json, expected.InOrder ∧ actual.InOrder ∧
      (Literal.json expected).accepts (some actual) = true ∧ (expected == actual) = false := by
  have single (number : Number) : (Json.number number).InOrder :=
    .of_no_parts (by rintro (_ | _) <;> rfl) nofun
  have representable : Binary64.Representable 0 := by decide +kernel
  refine ⟨⟨fun _ _ => BEq.symm, fun _ _ _ => BEq.trans⟩, ⟨fun _ _ => BEq.symm, fun _ _ _ =>
    BEq.trans⟩, fun _ => Outcome.beq_self_iff, fun expected actual ordered ordered' => ⟨?_, ?_⟩,
    ?_, ?_⟩
  · exact accepts_of_beq ordered.distinctKeys ordered'.distinctKeys
  · exact beq_of_accepts ordered ordered'
  · exact ⟨_, _, single _, single _, beq_opposite_zeros representable⟩
  · exact ⟨_, _, single _, single _, accepts_toBinary64 ⟨1, by decide⟩⟩

/-- Two objects that are built from the same members in two orders, with an integer in a list and a
zero: they are equal, so they match, and the other way around. -/
theorem equal_and_matching_members :
    let one : Number := .integer ⟨1, by decide⟩
    let zero : Number := .double ⟨false, 0, by decide +kernel⟩
    let items : Json := .array [.number one, .null]
    let expected := Json.ofMembers [("size", .number zero), ("items", items)]
    let actual := Json.ofMembers [("items", items), ("size", .number zero)]
    (expected.InOrder ∧ actual.InOrder) ∧
      (expected.CorrespondingNumbers (fun left right => ¬ left.OppositeZeros right) actual ∧
        expected.CorrespondingNumbers Number.SameForm actual) ∧
      (expected == actual) = true ∧ (Literal.json expected).accepts (some actual) = true := by
  intro one zero items expected actual
  have number (number : Number) : (Json.number number).InOrder :=
    .of_no_parts (by rintro (_ | _) <;> rfl) nofun
  have list : items.InOrder :=
    .array (List.forall_mem_cons.mpr ⟨number one, List.forall_mem_singleton.mpr
      (.of_no_parts (by rintro (_ | _) <;> rfl) nofun)⟩)
  have ordered : expected.InOrder :=
    Json.inOrder_ofMembers (List.forall_mem_cons.mpr ⟨number zero,
      List.forall_mem_singleton.mpr list⟩)
  have ordered' : actual.InOrder :=
    Json.inOrder_ofMembers (List.forall_mem_cons.mpr ⟨list,
      List.forall_mem_singleton.mpr (number zero)⟩)
  have same : actual = expected := by
    have below : "items" < "size" := by decide
    have notBelow : ¬ "size" < "items" := by decide
    have different : "size" ≠ "items" := by decide
    simp only [expected, actual, Json.ofMembers, List.foldl_cons, List.foldl_nil,
      Json.insertMember, if_pos below, if_neg notBelow, if_neg different]
  have plain (number : Number) : ¬ number.OppositeZeros number := by
    cases number with
    | integer _ => exact id
    | double _ => exact fun zeros => zeros.2.2 rfl
  have form (number : Number) : number.SameForm number := rfl
  have zeros : expected.CorrespondingNumbers (fun left right => ¬ left.OppositeZeros right)
      actual := by
    rw [same]
    exact .refl plain expected
  have forms : expected.CorrespondingNumbers Number.SameForm actual := by
    rw [same]
    exact .refl form expected
  obtain ⟨_, _, _, related, _, _⟩ := equality_and_matching
  obtain ⟨match_of_equal, equal_of_match⟩ := related expected actual ordered ordered'
  have equal : (expected == actual) = true := by
    rw [same]
    exact BEq.rfl
  have accepted : (Literal.json expected).accepts (some actual) = true := match_of_equal equal zeros
  exact ⟨⟨ordered, ordered'⟩, ⟨zeros, forms⟩, equal_of_match accepted forms, accepted⟩

end Literal

end Conform

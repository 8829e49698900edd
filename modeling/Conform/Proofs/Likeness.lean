import Mathlib.Data.List.Forall2
import Mathlib.Data.List.Perm.Subperm
import Conform.Literal
import Conform.Proofs.Comparison
import Conform.Proofs.Parts
import Conform.Proofs.Rounding
/-!
# When values match

A literal accepts a value of the same structure whose numbers match one by one, and numbers match
if they have the same value and neither is negative zero unless both are. There is one exception:
an integer that no binary64 number holds also matches the nearest binary64 number. So matching is
exact, and transitive, only among values whose integers the format holds.
-/

namespace Conform

open List (Forall₂)

namespace Number

/-- The value of a number, in units of `2 ^ -1074`. -/
def value : Number → Int
  | .integer number => number.value
  | .double number => number.value

/-- The zero with a sign, which no integer is. -/
def IsNegativeZero : Number → Prop
  | .integer _ => False
  | .double number => number.IsNegativeZero

/-- A number that some binary64 number has the value of. -/
def IsExact : Number → Prop
  | .integer number => ∃ double : Binary64, double.value = number.value
  | .double _ => True

/-- The same value, and both are negative zero or neither is. -/
def Coincides (left right : Number) : Prop :=
  left.value = right.value ∧ (left.IsNegativeZero ↔ right.IsNegativeZero)

/-- Numbers that are taken for the same: they coincide, or one is an integer and the other one the
nearest binary64 number. -/
inductive Meets : Number → Number → Prop
  /-- Numbers that coincide. -/
  | coincides {left right : Number} (same : left.Coincides right) : Meets left right
  /-- An integer and the nearest binary64 number. -/
  | rounded {integer : WordInt} {double : Binary64} (nearest : double.IsNearest integer.value)
      (plain : ¬ double.IsNegativeZero) : Meets (.integer integer) (.double double)
  /-- The nearest binary64 number and the integer. -/
  | rounded' {integer : WordInt} {double : Binary64} (nearest : double.IsNearest integer.value)
      (plain : ¬ double.IsNegativeZero) : Meets (.double double) (.integer integer)

/-- Integers of the same value are the same. -/
theorem integer_eq_iff {left right : WordInt} : left = right ↔ left.value = right.value := by
  constructor
  · rintro rfl
    rfl
  · intro same
    have factor : (Binary64.unitsPerOne : Int) ≠ 0 :=
      Int.natCast_ne_zero.mpr (Nat.ne_of_gt Binary64.unitsPerOne_pos)
    obtain ⟨val, fits⟩ := left
    obtain ⟨val', fits'⟩ := right
    obtain rfl : val = val' := Int.eq_of_mul_eq_mul_right factor same
    rfl

/-- A binary64 number is what an integer is turned into exactly if it is the nearest one and not
negative zero. -/
theorem toBinary64_eq_iff {integer : WordInt} {double : Binary64} :
    integer.toBinary64 = double ↔ double.IsNearest integer.value ∧ ¬ double.IsNegativeZero := by
  constructor
  · rintro rfl
    exact ⟨integer.isNearest_toBinary64, integer.not_isNegativeZero_toBinary64⟩
  · intro ⟨nearest, plain⟩
    have same := WordInt.value_eq_of_isNearest nearest
    exact Binary64.eq_iff.mpr
      ⟨same.symm, iff_of_false integer.not_isNegativeZero_toBinary64 plain⟩

/-- An integer and a binary64 number that coincide are the nearest to each other. -/
theorem toBinary64_eq_of_coincides {integer : WordInt} {double : Binary64}
    (same : integer.value = double.value) (plain : ¬ double.IsNegativeZero) :
    integer.toBinary64 = double := by
  refine Binary64.eq_iff.mpr ⟨?_, iff_of_false integer.not_isNegativeZero_toBinary64 plain⟩
  rw [WordInt.value_toBinary64_of_exact same.symm, same]

/-- Meeting reads the same from the other side. -/
theorem Meets.symm {left right : Number} (meets : left.Meets right) : right.Meets left := by
  cases meets with
  | coincides same => exact .coincides ⟨same.1.symm, same.2.symm⟩
  | rounded nearest plain => exact .rounded' nearest plain
  | rounded' nearest plain => exact .rounded nearest plain

/-- An integer is turned into the binary64 numbers that it meets. -/
theorem toBinary64_eq_iff_meets {integer : WordInt} {double : Binary64} :
    integer.toBinary64 = double ↔ (Number.integer integer).Meets (.double double) := by
  constructor
  · intro same
    obtain ⟨nearest, plain⟩ := toBinary64_eq_iff.mp same
    exact .rounded nearest plain
  · intro meets
    cases meets with
    | coincides same => exact toBinary64_eq_of_coincides same.1 same.2.mpr
    | rounded nearest plain => exact toBinary64_eq_iff.mpr ⟨nearest, plain⟩

/-- Numbers are taken for the same exactly if they meet. -/
theorem same_iff_meets (left right : Number) : left.same right = true ↔ left.Meets right := by
  match left, right with
  | .integer left, .integer right =>
    rw [same, beq_iff_eq, integer_eq_iff]
    constructor
    · exact fun same => .coincides ⟨same, .rfl⟩
    · rintro ⟨same, _⟩
      exact same
  | .integer left, .double right =>
    change (left.toBinary64 == right) = true ↔ _
    rw [beq_iff_eq]
    exact toBinary64_eq_iff_meets
  | .double left, .integer right =>
    change (left == right.toBinary64) = true ↔ _
    rw [beq_iff_eq, eq_comm, toBinary64_eq_iff_meets]
    exact ⟨.symm, .symm⟩
  | .double left, .double right =>
    change (left == right) = true ↔ _
    rw [beq_iff_eq, Binary64.eq_iff]
    constructor
    · exact fun same => .coincides same
    · rintro ⟨same⟩
      exact same

/-- Among numbers that the format holds, those that meet are those that coincide. -/
theorem meets_iff_coincides {left right : Number} (exact_ : left.IsExact)
    (exact' : right.IsExact) : left.Meets right ↔ left.Coincides right := by
  constructor
  · intro meets
    cases meets with
    | coincides same => exact same
    | rounded nearest plain =>
      obtain ⟨_, held⟩ := exact_
      have same := WordInt.value_eq_of_isNearest nearest
      rw [WordInt.value_toBinary64_of_exact held] at same
      exact ⟨same.symm, iff_of_false id plain⟩
    | rounded' nearest plain =>
      obtain ⟨_, held⟩ := exact'
      have same := WordInt.value_eq_of_isNearest nearest
      rw [WordInt.value_toBinary64_of_exact held] at same
      exact ⟨same, iff_of_false plain id⟩
  · exact .coincides

end Number

namespace Json

/-- Values of the same structure, whose numbers are related one by one: objects have members under
the same keys, arrays have as many elements. -/
inductive Alike (Related : Number → Number → Prop) : Json → Json → Prop
  /-- The same `null`. -/
  | null : Alike Related .null .null
  /-- The same truth value. -/
  | bool {value : Bool} : Alike Related (.bool value) (.bool value)
  /-- Related numbers. -/
  | number {value value' : Number} (related : Related value value') :
      Alike Related (.number value) (.number value')
  /-- The same string. -/
  | string {value : String} : Alike Related (.string value) (.string value)
  /-- As many elements, which are alike one by one. -/
  | array {elements elements' : List Json} (each : Forall₂ (Alike Related) elements elements') :
      Alike Related (.array elements) (.array elements')
  /-- Under each key members that are alike, or none in both. -/
  | object {members members' : List (String × Json)}
      (each : ∀ key,
        Option.Rel (Alike Related) (members.lookup key) (members'.lookup key)) :
      Alike Related (.object members) (.object members')

/-- No object in a value has two members with one key. -/
def DistinctKeys (value : Json) : Prop :=
  value.Throughout fun part => ∀ members, part = .object members → (members.map Prod.fst).Nodup

/-- Every number in a value has a property. -/
def EveryNumber (property : Number → Prop) (value : Json) : Prop :=
  value.Throughout fun part => ∀ number, part = .number number → property number

/-- Some binary64 number has the value of each integer in a value. -/
def IsExact (value : Json) : Prop := value.EveryNumber Number.IsExact

namespace EveryNumber

variable {property : Number → Prop}

/-- There is no number in `null`. -/
theorem null : Json.null.EveryNumber property :=
  .of_parts (fun _ other => Json.noConfusion other) nofun

/-- A number is the only one in itself. -/
theorem number {number : Number} (here : property number) :
    (Json.number number).EveryNumber property := by
  refine .of_parts ?_ nofun
  rintro _ ⟨⟩
  exact here

/-- The numbers in an array are those in its elements. -/
theorem array {elements : List Json} (each : ∀ element ∈ elements, element.EveryNumber property) :
    (Json.array elements).EveryNumber property :=
  Throughout.array (fun _ other => Json.noConfusion other) each

/-- The numbers in an object are those in its members. -/
theorem object {members : List (String × Json)}
    (each : ∀ member ∈ members, member.2.EveryNumber property) :
    (Json.object members).EveryNumber property :=
  Throughout.object (fun _ other => Json.noConfusion other) each

end EveryNumber

/-- Elements are the same if they are the same one by one. -/
theorem sameElements_iff (elements elements' : List Json) :
    sameElements elements elements' = true ↔
      Forall₂ (fun element element' => element.same element' = true) elements elements' :=
  walk_iff_forall₂ sameElements same rfl (fun _ _ => rfl) (fun _ _ => rfl) (fun _ _ _ _ => rfl)
    elements elements'

/-- Members are the same if the others have, under each of their keys, the same value. -/
theorem sameMembers_iff (members others : List (String × Json)) :
    sameMembers members others = true ↔ ∀ member ∈ members,
      ∃ other, others.lookup member.1 = some other ∧ member.2.same other = true := by
  induction members with
  | nil => simp [sameMembers]
  | cons member rest ih =>
    obtain ⟨key, value⟩ := member
    rw [sameMembers, Bool.and_eq_true, ih, List.forall_mem_cons]
    cases others.lookup key <;> simp

/-- Two parts that are related, if there are any, may be related in another way. -/
theorem rel_imp {α β : Type} {Related Related' : α → β → Prop} {first : Option α}
    {second : Option β} (related : Option.Rel Related first second)
    (imp : ∀ left right, first = some left → second = some right → Related left right →
      Related' left right) : Option.Rel Related' first second := by
  cases related with
  | none => exact .none
  | some here => exact .some (imp _ _ rfl rfl here)

/-- Objects with distinct keys that have something under the same keys have the same keys. -/
theorem keys_perm_of_rel {Related : Json → Json → Prop} {members members' : List (String × Json)}
    (distinct : (members.map Prod.fst).Nodup) (distinct' : (members'.map Prod.fst).Nodup)
    (each : ∀ key, Option.Rel Related (members.lookup key) (members'.lookup key)) :
    (members.map Prod.fst).Perm (members'.map Prod.fst) := by
  refine (List.perm_ext_iff_of_nodup distinct distinct').mpr fun key => ?_
  rw [← isSome_lookup_iff, ← isSome_lookup_iff]
  have related := each key
  generalize members.lookup key = found, members'.lookup key = found' at related
  cases related with
  | none => exact .rfl
  | some _ => exact .rfl

/-- Objects with distinct keys are the same if, under every key, both have the same value or
none. -/
theorem same_object_iff {members members' : List (String × Json)}
    (distinct : (members.map Prod.fst).Nodup) (distinct' : (members'.map Prod.fst).Nodup) :
    (Json.object members).same (.object members') = true ↔ ∀ key,
      Option.Rel (fun value value' => value.same value' = true) (members.lookup key)
        (members'.lookup key) := by
  rw [same, Bool.and_eq_true, beq_iff_eq, sameMembers_iff]
  constructor
  · intro ⟨long, each⟩ key
    have keys : members.map Prod.fst ⊆ members'.map Prod.fst := by
      intro key among
      obtain ⟨member, listed, rfl⟩ := List.mem_map.mp among
      obtain ⟨other, found, _⟩ := each member listed
      exact List.mem_map.mpr ⟨_, mem_of_lookup found, rfl⟩
    have perm : (members.map Prod.fst).Perm (members'.map Prod.fst) := by
      apply (List.subperm_of_subset distinct keys).perm_of_length_le
      rw [List.length_map, List.length_map]
      exact Nat.le_of_eq long.symm
    cases found : members.lookup key with
    | none =>
      have absent : key ∉ members'.map Prod.fst := by
        rw [← perm.mem_iff, ← isSome_lookup_iff, found]
        exact Bool.false_ne_true
      rw [← isSome_lookup_iff, Bool.not_eq_true, Option.isSome_eq_false_iff,
        Option.isNone_iff_eq_none] at absent
      rw [absent]
      exact .none
    | some value =>
      obtain ⟨other, found', same⟩ := each (key, value) (mem_of_lookup found)
      rw [found']
      exact .some same
  · intro each
    constructor
    · have perm := keys_perm_of_rel distinct distinct' each
      rw [← List.length_map Prod.fst, perm.length_eq, List.length_map]
    · intro member listed
      have related := each member.1
      rw [(lookup_eq_some_iff_mem distinct).mpr listed] at related
      cases found : members'.lookup member.1 with
      | none =>
        rw [found] at related
        cases related
      | some other =>
        rw [found] at related
        cases related with
        | some same => exact ⟨other, rfl, same⟩

/-- Values with distinct keys that are the same are alike, with the same numbers. -/
theorem alike_of_same {value value' : Json} (distinct : value.DistinctKeys)
    (distinct' : value'.DistinctKeys) (accepted : value.same value' = true) :
    value.Alike (fun left right => left.same right = true) value' := by
  induction value using inductionOnParts generalizing value' with
  | step whole ih =>
    cases whole with
    | null =>
      cases value' with
      | null => exact .null
      | _ => cases accepted
    | bool left =>
      cases value' with
      | bool right =>
        obtain rfl := beq_iff_eq.mp accepted
        exact .bool
      | _ => cases accepted
    | number left =>
      cases value' with
      | number right => exact .number accepted
      | _ => cases accepted
    | string left =>
      cases value' with
      | string right =>
        obtain rfl := beq_iff_eq.mp accepted
        exact .string
      | _ => cases accepted
    | array left =>
      cases value' with
      | array right =>
        rw [same, sameElements_iff] at accepted
        refine .array ((forall₂_with_mem accepted).imp ?_)
        rintro element element' ⟨listed, listed', same⟩
        obtain ⟨step, selected⟩ := exists_select?_of_mem listed
        exact ih step element selected (distinct.part selected) (distinct'.element listed') same
      | _ => cases accepted
    | object left =>
      cases value' with
      | object right =>
        have each := (same_object_iff (distinct.here left rfl) (distinct'.here right rfl)).mp
          accepted
        refine .object fun key => rel_imp (each key) fun member member' found found' same => ?_
        exact ih (.field key) member found (distinct.member found) (distinct'.member found') same
      | _ => cases accepted

/-- Values with distinct keys are the same if they are alike, with the same numbers. -/
theorem same_of_alike {value value' : Json} (distinct : value.DistinctKeys)
    (distinct' : value'.DistinctKeys)
    (alike : value.Alike (fun left right => left.same right = true) value') :
    value.same value' = true := by
  induction value using inductionOnParts generalizing value' with
  | step whole ih =>
    cases alike with
    | null => rfl
    | bool => exact beq_self_eq_true _
    | number related => exact related
    | string => exact beq_self_eq_true _
    | array each =>
      rw [same, sameElements_iff]
      refine (forall₂_with_mem each).imp ?_
      rintro element element' ⟨listed, listed', related⟩
      obtain ⟨step, selected⟩ := exists_select?_of_mem listed
      exact ih step element selected (distinct.part selected) (distinct'.element listed') related
    | @object members members' each =>
      rw [same_object_iff (distinct.here members rfl) (distinct'.here members' rfl)]
      refine fun key => rel_imp (each key) fun member member' found found' related => ?_
      exact ih (.field key) member found (distinct.member found) (distinct'.member found') related

/-- Every two numbers at one place of two values are related. -/
def CorrespondingNumbers (Related : Number → Number → Prop) (value value' : Json) : Prop :=
  ∀ steps left right, value.at? steps = some (.number left) →
    value'.at? steps = some (.number right) → Related left right

/-- Numbers that correspond in parts selected by one step correspond in the values. -/
theorem CorrespondingNumbers.part {Related : Number → Number → Prop} {value value' : Json}
    (all : value.CorrespondingNumbers Related value') (step : Step) {part part' : Json}
    (selected : value.select? step = some part) (selected' : value'.select? step = some part') :
    part.CorrespondingNumbers Related part' := by
  intro steps left right reached reached'
  refine all (step :: steps) left right ?_ ?_
  · rw [at?, selected]
    exact reached
  · rw [at?, selected']
    exact reached'

/-- Values that are alike stay so if corresponding numbers stay related. -/
theorem Alike.imp_corresponding {Related Related' Known : Number → Number → Prop}
    {value value' : Json} (known : value.CorrespondingNumbers Known value')
    (stay : ∀ left right, Known left right → Related left right → Related' left right)
    (alike : value.Alike Related value') : value.Alike Related' value' := by
  induction value using inductionOnParts generalizing value' with
  | step whole ih =>
    cases alike with
    | null => exact .null
    | bool => exact .bool
    | @number left right related =>
      exact .number (stay left right (known [] left right rfl rfl) related)
    | string => exact .string
    | array each =>
      refine .array ((forall₂_with_position each).imp ?_)
      rintro element element' ⟨position, selected, selected', related⟩
      exact ih (.index position) element selected
        (known.part (.index position) selected selected') related
    | object each =>
      refine .object fun key => rel_imp (each key) fun member member' found found' related => ?_
      exact ih (.field key) member found (known.part (.field key) found found') related

/-- Values that are alike stay so if their numbers stay related, knowing a property of every number
on each side. -/
theorem Alike.imp {Related Related' : Number → Number → Prop} {First Second : Number → Prop}
    {value value' : Json}
    (first : value.EveryNumber First) (second : value'.EveryNumber Second)
    (stay : ∀ left right, First left → Second right → Related left right → Related' left right)
    (alike : value.Alike Related value') : value.Alike Related' value' := by
  have known : value.CorrespondingNumbers (fun left right => First left ∧ Second right) value' :=
    fun steps left right reached reached' =>
      ⟨first steps _ reached left rfl, second steps _ reached' right rfl⟩
  exact alike.imp_corresponding known fun left right held => stay left right held.1 held.2

/-- Values that are alike are so for every weaker relation between numbers. -/
theorem Alike.mono {Related Related' : Number → Number → Prop} {value value' : Json}
    (weaker : ∀ left right, Related left right → Related' left right)
    (alike : value.Alike Related value') : value.Alike Related' value' := by
  have any (value : Json) : value.EveryNumber fun _ => True := fun _ _ _ _ _ => trivial
  exact alike.imp (any value) (any value') fun left right _ _ => weaker left right

end Json

namespace Literal

/-- A value accepts the values that are like it, up to numbers that meet. -/
theorem accepts_json_iff {expected actual : Json} (distinct : expected.DistinctKeys)
    (distinct' : actual.DistinctKeys) :
    (Literal.json expected).accepts (some actual) = true ↔
      expected.Alike Number.Meets actual := by
  constructor
  · intro accepted
    exact (Json.alike_of_same distinct distinct' accepted).mono fun left right =>
      (Number.same_iff_meets left right).mp
  · intro alike
    exact Json.same_of_alike distinct distinct' (alike.mono fun left right =>
      (Number.same_iff_meets left right).mpr)

/-- A literal accepts the values that are alike, up to numbers that meet: an integer meets the
nearest binary64 number, also where that has another value. Values that coincide are always
accepted, and no other ones are if each integer is the value of some binary64 number. -/
theorem accepts_iff_alike {expected actual : Json} (distinct : expected.DistinctKeys)
    (distinct' : actual.DistinctKeys) :
    ((Literal.json expected).accepts (some actual) = true ↔ expected.Alike Number.Meets actual) ∧
    (expected.Alike Number.Coincides actual →
      (Literal.json expected).accepts (some actual) = true) ∧
    (expected.IsExact → actual.IsExact →
      ((Literal.json expected).accepts (some actual) = true ↔
        expected.Alike Number.Coincides actual)) := by
  have accepts_iff := accepts_json_iff distinct distinct'
  have accepts_of_coincides (alike : expected.Alike Number.Coincides actual) :
      (Literal.json expected).accepts (some actual) = true :=
    accepts_iff.mpr (alike.mono fun _ _ => .coincides)
  refine ⟨accepts_iff, accepts_of_coincides, fun exact_ exact' => ⟨fun accepted => ?_,
    accepts_of_coincides⟩⟩
  exact (accepts_iff.mp accepted).imp exact_ exact' fun left right held held' =>
    (Number.meets_iff_coincides held held').mp

/-- An object with an integer in a list and a large whole binary64 number accepts the one with the
same numbers the other way around, and they coincide one by one. -/
theorem accepts_numbers_in_other_form :
    let one : WordInt := ⟨1, by decide⟩
    let large : WordInt := ⟨9007199254740992, by decide⟩
    let expected : Json := .object [("items", .array [.number (.integer one), .null]),
      ("size", .number (.double large.toBinary64))]
    let actual : Json := .object [("items", .array [.number (.double one.toBinary64), .null]),
      ("size", .number (.integer large))]
    (expected.DistinctKeys ∧ actual.DistinctKeys ∧ expected.IsExact ∧ actual.IsExact) ∧
      (Literal.json expected).accepts (some actual) = true ∧
      expected.Alike Number.Coincides actual := by
  intro one large expected actual
  have keys {items size : Json} (distinct : items.DistinctKeys) (distinct' : size.DistinctKeys) :
      (Json.object [("items", items), ("size", size)]).DistinctKeys := by
    refine .object ?_ (List.forall_mem_cons.mpr ⟨distinct, List.forall_mem_singleton.mpr distinct'⟩)
    rintro members ⟨⟩
    exact (by decide : ["items", "size"].Nodup)
  have list (number : Number) : (Json.array [.number number, .null]).DistinctKeys :=
    .array nofun (List.forall_mem_cons.mpr
      ⟨.of_parts nofun nofun, List.forall_mem_singleton.mpr (.of_parts nofun nofun)⟩)
  have held {number number' : Number} (held : number.IsExact) (held' : number'.IsExact) :
      (Json.object [("items", .array [.number number, .null]),
        ("size", .number number')]).IsExact :=
    .object (List.forall_mem_cons.mpr
      ⟨.array (List.forall_mem_cons.mpr ⟨.number held, List.forall_mem_singleton.mpr .null⟩),
      List.forall_mem_singleton.mpr (.number held')⟩)
  have distinct : expected.DistinctKeys := keys (list _) (.of_parts nofun nofun)
  have distinct' : actual.DistinctKeys := keys (list _) (.of_parts nofun nofun)
  have heldOne : (Number.integer one).IsExact := WordInt.exists_value_eq (by decide)
  have heldLarge : (Number.integer large).IsExact := WordInt.exists_value_eq (by decide)
  have exact_ : expected.IsExact := held heldOne trivial
  have exact' : actual.IsExact := held trivial heldLarge
  have accepted : (Literal.json expected).accepts (some actual) = true := by decide +kernel
  obtain ⟨_, _, iff⟩ := accepts_iff_alike distinct distinct'
  exact ⟨⟨distinct, distinct', exact_, exact'⟩, accepted, (iff exact_ exact').mp accepted⟩

/-- Matching is not exact, and not transitive: an integer of 54 bits is accepted as the binary64
number nearest to it, and that one as another integer, which the first one is not. -/
theorem integer_matches_other_value :
    let odd : WordInt := ⟨9007199254740993, by decide⟩
    let even : WordInt := ⟨9007199254740992, by decide⟩
    let double : Number := .double even.toBinary64
    (Literal.json (.number (.integer odd))).accepts (some (.number double)) = true ∧
      ¬ (Number.integer odd).Coincides double ∧
      (Literal.json (.number double)).accepts (some (.number (.integer even))) = true ∧
      (Literal.json (.number (.integer odd))).accepts (some (.number (.integer even))) = false := by
  intro odd even double
  refine ⟨by decide +kernel, ?_, by decide +kernel, by decide +kernel⟩
  intro ⟨same, _⟩
  exact absurd same (by decide +kernel)

end Literal

end Conform

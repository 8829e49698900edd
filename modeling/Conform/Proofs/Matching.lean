import Conform.Proofs.Likeness
/-!
# Matching as a relation

Values match if they are alike up to numbers that meet. Every value matches itself, and matching
reads the same from both sides, since numbers meet from both sides and two objects that have
something under the same keys have it both ways. Matching passes on from one value to the next
where all integers are of magnitude `2 ^ 53` or less: numbers that meet there coincide.
-/

namespace Conform

open List (Forall₂)

namespace Number

/-- An integer of magnitude `2 ^ 53` or less, or a binary64 number. -/
def IsShort : Number → Prop
  | .integer number => number.val.natAbs ≤ 2 ^ 53
  | .double _ => True

/-- The format holds the short numbers. -/
theorem IsShort.isExact {number : Number} (short : number.IsShort) : number.IsExact := by
  cases number with
  | integer number => exact WordInt.exists_value_eq short
  | double _ => trivial

/-- Every number coincides with itself. -/
theorem Coincides.refl (number : Number) : number.Coincides number := ⟨rfl, .rfl⟩

/-- Numbers that coincide with one number coincide. -/
theorem Coincides.trans {left middle right : Number} (first : left.Coincides middle)
    (second : middle.Coincides right) : left.Coincides right :=
  ⟨first.1.trans second.1, first.2.trans second.2⟩

/-- Every number meets itself. -/
theorem Meets.refl (number : Number) : number.Meets number := .coincides (.refl number)

end Number

namespace Json

variable {Related Related' Related'' : Number → Number → Prop}

/-- Parts that are related are related the other way around, if both are there. -/
theorem rel_swap {α : Type} {Related Related' : α → α → Prop} {first second : Option α}
    (related : Option.Rel Related first second)
    (swap : ∀ left right, first = some left → Related left right → Related' right left) :
    Option.Rel Related' second first := by
  cases related with
  | none => exact .none
  | some here => exact .some (swap _ _ rfl here)

/-- Parts that are related one after the other are related. -/
theorem rel_trans {α : Type} {Related Related' Related'' : α → α → Prop}
    {first second third : Option α} (related : Option.Rel Related first second)
    (related' : Option.Rel Related' second third)
    (trans : ∀ left middle right, first = some left → Related left middle →
      Related' middle right → Related'' left right) :
    Option.Rel Related'' first third := by
  cases related with
  | none =>
    cases related'
    exact .none
  | some here =>
    cases related' with
    | some next => exact .some (trans _ _ _ rfl here next)

namespace Alike

/-- Every value is like itself if every number is related to itself. -/
theorem refl (reflexive : ∀ number, Related number number) (value : Json) :
    value.Alike Related value := by
  induction value using inductionOnParts with
  | step whole ih =>
    cases whole with
    | null => exact .null
    | bool _ => exact .bool
    | number number => exact .number (reflexive number)
    | string _ => exact .string
    | array elements =>
      refine .array (List.forall₂_same.mpr fun element listed => ?_)
      obtain ⟨step, selected⟩ := exists_select?_of_mem listed
      exact ih step element selected
    | object members =>
      refine .object fun key => ?_
      cases found : members.lookup key with
      | none => exact .none
      | some member => exact .some (ih (.field key) member found)

/-- Values that are alike are so the other way around. -/
theorem symm (symmetric : ∀ left right, Related left right → Related' right left)
    {value value' : Json} (alike : value.Alike Related value') : value'.Alike Related' value := by
  induction value using inductionOnParts generalizing value' with
  | step whole ih =>
    cases alike with
    | null => exact .null
    | bool => exact .bool
    | number related => exact .number (symmetric _ _ related)
    | string => exact .string
    | array each =>
      refine .array (forall₂_swap each fun element listed element' related => ?_)
      obtain ⟨step, selected⟩ := exists_select?_of_mem listed
      exact ih step element selected related
    | object each =>
      exact .object fun key => rel_swap (each key) fun member _ found related =>
        ih (.field key) member found related

/-- Values that are alike one after the other are alike. -/
theorem trans
    (transitive : ∀ left middle right, Related left middle → Related' middle right →
      Related'' left right)
    {value value' value'' : Json} (alike : value.Alike Related value')
    (alike' : value'.Alike Related' value'') : value.Alike Related'' value'' := by
  induction value using inductionOnParts generalizing value' value'' with
  | step whole ih =>
    cases alike with
    | null =>
      cases alike'
      exact .null
    | bool =>
      cases alike'
      exact .bool
    | number related =>
      cases alike' with
      | number related' => exact .number (transitive _ _ _ related related')
    | string =>
      cases alike'
      exact .string
    | array each =>
      cases alike' with
      | array each' =>
        refine .array (forall₂_trans each each' fun element listed _ _ related related' => ?_)
        obtain ⟨step, selected⟩ := exists_select?_of_mem listed
        exact ih step element selected related related'
    | object each =>
      cases alike' with
      | object each' =>
        exact .object fun key => rel_trans (each key) (each' key)
          fun member _ _ found related related' => ih (.field key) member found related related'

end Alike

/-- Values that are alike up to numbers that meet are alike up to numbers that coincide, if all
their numbers are short. -/
theorem Alike.coincides {value value' : Json} (short : value.EveryNumber Number.IsShort)
    (short' : value'.EveryNumber Number.IsShort) (alike : value.Alike Number.Meets value') :
    value.Alike Number.Coincides value' :=
  alike.imp short short' fun _ _ held held' =>
    (Number.meets_iff_coincides held.isExact held'.isExact).mp

end Json

namespace Literal

/-- Beyond `2 ^ 53` a value need not accept what is accepted by one that it accepts: the next
integer and that power are both taken for one binary64 number. -/
theorem not_accepts_through_rounded :
    let odd : WordInt := ⟨9007199254740993, by decide⟩
    let even : WordInt := ⟨9007199254740992, by decide⟩
    let double : Json := .number (.double even.toBinary64)
    (Literal.json (.number (.integer odd))).accepts (some double) = true ∧
      (Literal.json double).accepts (some (.number (.integer even))) = true ∧
      (Literal.json (.number (.integer odd))).accepts (some (.number (.integer even))) = false :=
  ⟨by decide +kernel, by decide +kernel, by decide +kernel⟩

/-- Every value accepts itself, and of two values each accepts the other one or none does. Where
all integers are of magnitude `2 ^ 53` or less, a value accepts what is accepted by one that it
accepts; it need not where they are larger. -/
theorem accepts_reflexive_symmetric_transitive {first second third : Json}
    (distinct : first.DistinctKeys) (distinct' : second.DistinctKeys)
    (distinct'' : third.DistinctKeys) :
    (Literal.json first).accepts (some first) = true ∧
    ((Literal.json first).accepts (some second) = true ↔
      (Literal.json second).accepts (some first) = true) ∧
    (first.EveryNumber Number.IsShort → second.EveryNumber Number.IsShort →
      third.EveryNumber Number.IsShort →
      (Literal.json first).accepts (some second) = true →
      (Literal.json second).accepts (some third) = true →
      (Literal.json first).accepts (some third) = true) ∧
    ∃ left middle right : Json,
      (left.DistinctKeys ∧ middle.DistinctKeys ∧ right.DistinctKeys) ∧
        (Literal.json left).accepts (some middle) = true ∧
        (Literal.json middle).accepts (some right) = true ∧
        (Literal.json left).accepts (some right) = false := by
  rw [accepts_json_iff distinct distinct, accepts_json_iff distinct distinct',
    accepts_json_iff distinct' distinct, accepts_json_iff distinct' distinct'',
    accepts_json_iff distinct distinct'']
  refine ⟨.refl .refl first, ⟨.symm fun _ _ => .symm, .symm fun _ _ => .symm⟩, ?_, ?_⟩
  · intro short short' short'' matched matched'
    have coincide : first.Alike Number.Coincides second := matched.coincides short short'
    have coincide' : second.Alike Number.Coincides third := matched'.coincides short' short''
    exact (coincide.trans (fun _ _ _ => .trans) coincide').mono fun _ _ => .coincides
  · have number (number : Number) : (Json.number number).DistinctKeys := .of_parts nofun nofun
    exact ⟨_, _, _, ⟨number _, number _, number _⟩, not_accepts_through_rounded⟩

/-- Three objects with the whole number `2 ^ 53` and a one in a list, in integers and in binary64
numbers and in two orders: the first accepts the third, since it accepts the second and that one
the third. -/
theorem accepts_through_other_form :
    let one : WordInt := ⟨1, by decide⟩
    let large : WordInt := ⟨9007199254740992, by decide⟩
    let first : Json := .object [("items", .array [.number (.integer one)]),
      ("size", .number (.integer large))]
    let second : Json := .object [("size", .number (.double large.toBinary64)),
      ("items", .array [.number (.integer one)])]
    let third : Json := .object [("items", .array [.number (.double one.toBinary64)]),
      ("size", .number (.integer large))]
    (first.DistinctKeys ∧ second.DistinctKeys ∧ third.DistinctKeys) ∧
      (first.EveryNumber Number.IsShort ∧ second.EveryNumber Number.IsShort ∧
        third.EveryNumber Number.IsShort) ∧
      (Literal.json first).accepts (some second) = true ∧
      (Literal.json second).accepts (some third) = true ∧
      (Literal.json first).accepts (some third) = true := by
  intro one large first second third
  have distinct {key key' : String} {value value' : Json} (different : key ≠ key')
      (inner : value.DistinctKeys) (inner' : value'.DistinctKeys) :
      (Json.object [(key, value), (key', value')]).DistinctKeys := by
    refine .object ?_ (List.forall_mem_cons.mpr ⟨inner, List.forall_mem_singleton.mpr inner'⟩)
    rintro members ⟨⟩
    exact List.nodup_cons.mpr ⟨List.mem_singleton.not.mpr different, List.pairwise_singleton _ _⟩
  have list (number : Number) : (Json.array [.number number]).DistinctKeys :=
    .array nofun (List.forall_mem_singleton.mpr (.of_parts nofun nofun))
  have short {key key' : String} {value value' : Json} (inner : value.EveryNumber Number.IsShort)
      (inner' : value'.EveryNumber Number.IsShort) :
      (Json.object [(key, value), (key', value')]).EveryNumber Number.IsShort :=
    .object (List.forall_mem_cons.mpr ⟨inner, List.forall_mem_singleton.mpr inner'⟩)
  have shortList {number : Number} (inner : number.IsShort) :
      (Json.array [.number number]).EveryNumber Number.IsShort :=
    .array (List.forall_mem_singleton.mpr (.number inner))
  have shortOne : (Number.integer one).IsShort := show (1 : Nat) ≤ 2 ^ 53 by decide
  have shortLarge : (Number.integer large).IsShort :=
    show (9007199254740992 : Nat) ≤ 2 ^ 53 by decide
  have distinctFirst : first.DistinctKeys := distinct (by decide) (list _) (.of_parts nofun nofun)
  have distinctSecond : second.DistinctKeys :=
    distinct (by decide) (.of_parts nofun nofun) (list _)
  have distinctThird : third.DistinctKeys := distinct (by decide) (list _) (.of_parts nofun nofun)
  have shortFirst : first.EveryNumber Number.IsShort :=
    short (shortList shortOne) (.number shortLarge)
  have shortSecond : second.EveryNumber Number.IsShort :=
    short (.number trivial) (shortList shortOne)
  have shortThird : third.EveryNumber Number.IsShort :=
    short (shortList trivial) (.number shortLarge)
  have accepted : (Literal.json first).accepts (some second) = true := by decide +kernel
  have accepted' : (Literal.json second).accepts (some third) = true := by decide +kernel
  obtain ⟨_, _, through, _⟩ :=
    accepts_reflexive_symmetric_transitive distinctFirst distinctSecond distinctThird
  exact ⟨⟨distinctFirst, distinctSecond, distinctThird⟩, ⟨shortFirst, shortSecond, shortThird⟩,
    accepted, accepted', through shortFirst shortSecond shortThird accepted accepted'⟩

end Literal

end Conform

import Conform.Json.Reading
import Conform.Proofs.Likeness
/-!
# Members in key order

An object that is built from members has them in strictly ascending order of their keys, whatever
order they were given in, and so has every object in a value that was read from a text. So two
objects with the same keys have them at the same places.
-/

namespace Conform.Json

/-- The members of every object in a value are in strictly ascending order of their keys. -/
def InOrder (value : Json) : Prop :=
  value.Throughout fun part =>
    ∀ members, part = .object members → (members.map Prod.fst).Pairwise (· < ·)

namespace InOrder

/-- No key occurs twice in an object whose members are in order. -/
theorem distinctKeys {value : Json} (ordered : value.InOrder) : value.DistinctKeys := by
  intro steps part reached members same
  refine (ordered steps part reached members same).imp ?_
  rintro first _ below rfl
  exact String.lt_irrefl first below

/-- All members of an object in order are in order: each is the one under its key. -/
theorem listed {members : List (String × Json)} (ordered : (Json.object members).InOrder)
    {member : String × Json} (listed : member ∈ members) : member.2.InOrder :=
  ordered.member ((lookup_eq_some_iff_mem (ordered.distinctKeys.here members rfl)).mpr listed)

/-- There is nothing to order in a value without parts. -/
theorem of_no_parts {value : Json} (scalar : ∀ step, value.select? step = none)
    (noObject : ∀ members, value ≠ .object members) : value.InOrder := by
  refine .of_parts (fun members same => absurd same (noObject members)) ?_
  intro step part selected
  rw [scalar step] at selected
  cases selected

/-- An array is in order if its elements are. -/
theorem array {elements : List Json} (each : ∀ element ∈ elements, element.InOrder) :
    (Json.array elements).InOrder :=
  Throughout.array nofun each

/-- An object is in order if its keys ascend and its members are in order. -/
theorem object {members : List (String × Json)}
    (ascending : (members.map Prod.fst).Pairwise (· < ·))
    (each : ∀ member ∈ members, member.2.InOrder) : (Json.object members).InOrder := by
  refine Throughout.object ?_ each
  rintro _ ⟨⟩
  exact ascending

end InOrder

/-- What is among members after one was put in was there before, or is the new one. -/
theorem mem_insertMember {key : String} {value : Json} {members : List (String × Json)}
    {member : String × Json} (inserted : member ∈ insertMember key value members) :
    member = (key, value) ∨ member ∈ members := by
  induction members with
  | nil => exact .inl (List.mem_singleton.mp inserted)
  | cons first rest ih =>
    obtain ⟨other, current⟩ := first
    rw [insertMember] at inserted
    split at inserted
    · exact List.mem_cons.mp inserted
    · split at inserted
      · exact (List.mem_cons.mp inserted).imp_right (List.mem_cons_of_mem _)
      · rcases List.mem_cons.mp inserted with rfl | later
        · exact .inr List.mem_cons_self
        · exact (ih later).imp_right (List.mem_cons_of_mem _)

/-- Putting a member at its place keeps the keys ascending. -/
theorem ascending_insertMember (key : String) (value : Json) {members : List (String × Json)}
    (ascending : (members.map Prod.fst).Pairwise (· < ·)) :
    ((insertMember key value members).map Prod.fst).Pairwise (· < ·) := by
  induction members with
  | nil => exact List.pairwise_singleton _ _
  | cons first rest ih =>
    obtain ⟨other, current⟩ := first
    obtain ⟨above, others⟩ := List.pairwise_cons.mp ascending
    rw [insertMember]
    split
    · rename_i below
      refine List.pairwise_cons.mpr ⟨fun later listed => ?_, ascending⟩
      rcases List.mem_cons.mp listed with rfl | behind
      · exact below
      · exact String.lt_trans below (above later behind)
    · rename_i notBelow
      split
      · rename_i same
        subst same
        exact List.pairwise_cons.mpr ⟨above, others⟩
      · rename_i different
        have after : other < key := String.not_le.mp fun reverse =>
          different (String.le_antisymm reverse (String.not_lt.mp notBelow))
        refine List.pairwise_cons.mpr ⟨fun later listed => ?_, ih others⟩
        obtain ⟨member, inserted, rfl⟩ := List.mem_map.mp listed
        rcases mem_insertMember inserted with rfl | old
        · exact after
        · exact above _ (List.mem_map_of_mem old)

/-- An object that is built from members in order is in order. -/
theorem inOrder_ofMembers {members : List (String × Json)}
    (each : ∀ member ∈ members, member.2.InOrder) : (ofMembers members).InOrder := by
  have built (sorted : List (String × Json))
      (ascending : (sorted.map Prod.fst).Pairwise (· < ·))
      (eachSorted : ∀ member ∈ sorted, member.2.InOrder) :
      (Json.object (members.foldl (fun sorted member => insertMember member.1 member.2 sorted)
        sorted)).InOrder := by
    induction members generalizing sorted with
    | nil => exact .object ascending eachSorted
    | cons member rest ih =>
      obtain ⟨first, others⟩ := List.forall_mem_cons.mp each
      refine ih others _ (ascending_insertMember _ _ ascending) fun inner inserted => ?_
      rcases mem_insertMember inserted with rfl | old
      · exact first
      · exact eachSorted inner old
  exact built [] .nil nofun

/-- The values in a container that is still open are in order. -/
def Frame.InOrder : Frame → Prop
  | .array elements => ∀ element ∈ elements, element.InOrder
  | .object members _ => ∀ member ∈ members, member.2.InOrder

namespace Progress

/-- All values that have been read are in order. -/
def InOrder : Progress → Prop
  | .beforeValue frames | .inNewArray frames | .inNewObject frames =>
    ∀ frame ∈ frames, frame.InOrder
  | .beforeKey members frames | .afterKey members _ frames =>
    (∀ member ∈ members, member.2.InOrder) ∧ ∀ frame ∈ frames, frame.InOrder
  | .afterValue value frames => value.InOrder ∧ ∀ frame ∈ frames, frame.InOrder

/-- A token that starts a value keeps all values in order. -/
theorem inOrder_startValue {frames : List Frame} (ordered : ∀ frame ∈ frames, frame.InOrder)
    {token : Token} {progress : Progress} (started : startValue frames token = some progress) :
    progress.InOrder := by
  cases token with
  | openArray | openObject =>
    obtain rfl := Option.some.inj started
    exact ordered
  | null | bool _ | number _ | string _ =>
    obtain rfl := Option.some.inj started
    exact ⟨.of_no_parts (by rintro (_ | _) <;> rfl) nofun, ordered⟩
  | closeArray | closeObject | comma | colon => cases started

/-- A token after a complete value keeps all values in order. -/
theorem inOrder_continueAfter {value : Json} {frames : List Frame} (complete : value.InOrder)
    (ordered : ∀ frame ∈ frames, frame.InOrder) {token : Token} {progress : Progress}
    (continued : continueAfter value frames token = some progress) : progress.InOrder := by
  cases frames with
  | nil => cases continued
  | cons frame frames =>
    obtain ⟨inner, outer⟩ := List.forall_mem_cons.mp ordered
    cases frame with
    | array elements =>
      have all : ∀ element ∈ value :: elements, element.InOrder :=
        List.forall_mem_cons.mpr ⟨complete, inner⟩
      cases token with
      | comma =>
        obtain rfl := Option.some.inj continued
        exact List.forall_mem_cons.mpr ⟨all, outer⟩
      | closeArray =>
        obtain rfl := Option.some.inj continued
        exact ⟨.array fun element listed => all element (List.mem_reverse.mp listed), outer⟩
      | _ => cases continued
    | object members key =>
      have all : ∀ member ∈ (key, value) :: members, member.2.InOrder :=
        List.forall_mem_cons.mpr ⟨complete, inner⟩
      cases token with
      | comma =>
        obtain rfl := Option.some.inj continued
        exact ⟨all, outer⟩
      | closeObject =>
        obtain rfl := Option.some.inj continued
        exact ⟨inOrder_ofMembers fun member listed => all member (List.mem_reverse.mp listed),
          outer⟩
      | _ => cases continued

/-- Taking a token keeps all values in order. -/
theorem inOrder_step {progress next : Progress} (ordered : progress.InOrder) {token : Token}
    (taken : progress.step token = some next) : next.InOrder := by
  cases progress with
  | beforeValue frames => exact inOrder_startValue ordered taken
  | inNewArray frames =>
    have opened : ∀ frame ∈ Frame.array [] :: frames, frame.InOrder :=
      List.forall_mem_cons.mpr ⟨nofun, ordered⟩
    cases token with
    | closeArray =>
      obtain rfl := Option.some.inj taken
      exact ⟨.array nofun, ordered⟩
    | _ =>
      simp only [step] at taken
      exact inOrder_startValue opened taken
  | inNewObject frames =>
    cases token with
    | closeObject =>
      obtain rfl := Option.some.inj taken
      exact ⟨.object .nil nofun, ordered⟩
    | string key =>
      obtain rfl := Option.some.inj taken
      exact ⟨nofun, ordered⟩
    | _ => cases taken
  | beforeKey members frames =>
    cases token with
    | string key =>
      obtain rfl := Option.some.inj taken
      exact ordered
    | _ => cases taken
  | afterKey members key frames =>
    cases token with
    | colon =>
      obtain rfl := Option.some.inj taken
      exact List.forall_mem_cons.mpr ordered
    | _ => cases taken
  | afterValue value frames => exact inOrder_continueAfter ordered.1 ordered.2 taken

/-- Taking any tokens keeps all values in order. -/
theorem inOrder_run {tokens : List Token} {progress last : Progress} (ordered : progress.InOrder)
    (taken : tokens.foldlM step progress = some last) : last.InOrder := by
  induction tokens generalizing progress with
  | nil =>
    obtain rfl := Option.some.inj taken
    exact ordered
  | cons token rest ih =>
    obtain ⟨next, first, further⟩ := Option.bind_eq_some_iff.mp taken
    exact ih (inOrder_step ordered first) further

end Progress

/-- Every value that is read from a text is in order. -/
theorem inOrder_of_read {text : String} {value : Json} (read : read? text = some value) :
    value.InOrder := by
  obtain ⟨tokens, _, whole⟩ := Option.bind_eq_some_iff.mp read
  rw [ofTokens?] at whole
  split at whole
  · rename_i complete taken
    obtain rfl := Option.some.inj whole
    have start : (Progress.beforeValue []).InOrder := nofun
    exact (Progress.inOrder_run start taken).1
  · cases whole

end Conform.Json

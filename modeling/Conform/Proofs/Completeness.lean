import Mathlib.Data.List.Sort
import Conform.Proofs.Conformance
import Conform.Proofs.Mismatch
/-!
# Outcomes are complete

The outcome of a candidate that does not conform is an account of the reasons, and
`Store.Accounts` says when an account is complete. At every depth it names exactly the properties
that are refused, in the order of their declaration, exactly the positions that are refused, in
ascending order, and every alternative; and what it says about each of them is a complete account
again. The relation asks which parts conform and never how they are checked. It leaves no choice:
a candidate has one complete account at most, and this is what evaluation returns.
-/

namespace Conform

open Relation

/-- A node without a function. -/
def Target.Declarative : Target → Prop
  | .shape (.custom _) => False
  | _ => True

namespace Outcome

/-- An outcome stands in another one, at any depth. -/
abbrev Contains : Outcome → Outcome → Prop := ReflTransGen HasPart

/-- Where some property is mismatched, the object is. -/
theorem ofProperties_of_ne_nil {properties : List (String × Outcome)} (nonempty : properties ≠ []) :
    ofProperties properties = .inProperties properties := by
  cases properties with
  | nil => exact absurd rfl nonempty
  | cons first rest => rfl

/-- Where some item is mismatched, the array is. -/
theorem ofItems_of_ne_nil {items : List (Nat × Outcome)} (nonempty : items ≠ []) :
    ofItems items = .inItems items := by
  cases items with
  | nil => exact absurd rfl nonempty
  | cons first rest => rfl

/-- Entries with the same labels are the same, if their labels determine the outcomes. -/
theorem eq_of_labels_eq {α : Type} {first second : List (α × Outcome)}
    (labels : first.map Prod.fst = second.map Prod.fst)
    (determined : ∀ entry ∈ first, ∀ other ∈ second, other.1 = entry.1 → other.2 = entry.2) :
    second = first := by
  induction first generalizing second with
  | nil => exact List.map_eq_nil_iff.mp labels.symm
  | cons entry rest ih =>
    cases second with
    | nil => exact absurd labels (List.cons_ne_nil _ _)
    | cons other others =>
      obtain ⟨label, labels⟩ := List.cons.inj labels
      have outcome := determined entry List.mem_cons_self other List.mem_cons_self label.symm
      rw [Prod.ext label.symm outcome, ih labels fun later member further member' =>
        determined later (.tail _ member) further (.tail _ member')]

end Outcome

namespace Store

open Classical in
/-- The properties that are refused in a value, in their order. A property that is declared twice
counts twice. -/
noncomputable def refused (store : Store) (properties : List Property) (value : Json) :
    List Property :=
  properties.filter fun property =>
    ¬ store.Conforms property.target (property.accessor.select? value)

/-- An outcome is a complete account of why a candidate does not conform to a target. The lists of
failures in the rules for objects and unions say what each entry of the outcome is about. -/
inductive Accounts (store : Store) : Target → Option Json → Outcome → Prop
  /-- A candidate of another kind. -/
  | kind {expected : Kind} {candidate : Option Json} (different : Kind.of candidate ≠ expected) :
      Accounts store (.shape (.kind expected)) candidate (.wrongKind expected (Kind.of candidate))
  /-- A candidate with another value. -/
  | literal {expected : Literal} {candidate : Option Json}
      (refused : expected.accepts candidate = false) :
      Accounts store (.shape (.literal expected)) candidate
        (.wrongValue expected (Literal.of candidate))
  /-- No object, where one is expected. -/
  | notObject {properties : List Property} {candidate : Option Json}
      (different : Kind.of candidate ≠ .object) :
      Accounts store (.shape (.object properties)) candidate
        (.wrongKind .object (Kind.of candidate))
  /-- An object with refused properties: all of them, in their order. -/
  | object {properties : List Property} {members : List (String × Json)}
      {failures : List (Property × Outcome)} (nonempty : failures ≠ [])
      (exactly : failures.map Prod.fst = store.refused properties (.object members))
      (each : ∀ failure ∈ failures, Accounts store failure.1.target
        (failure.1.accessor.select? (.object members)) failure.2) :
      Accounts store (.shape (.object properties)) (some (.object members))
        (.inProperties (failures.map fun failure => (failure.1.name, failure.2)))
  /-- No array, where one is expected. -/
  | notArray {item : Target} {candidate : Option Json} (different : Kind.of candidate ≠ .array) :
      Accounts store (.shape (.array item)) candidate (.wrongKind .array (Kind.of candidate))
  /-- An array with refused elements: all of their positions, in ascending order. -/
  | array {item : Target} {elements : List Json} {failures : List (Nat × Outcome)}
      (nonempty : failures ≠ []) (ascending : (failures.map Prod.fst).Pairwise (· < ·))
      (exactly : ∀ position, position ∈ failures.map Prod.fst ↔
        ∃ below : position < elements.length, ¬ store.Conforms item elements[position])
      (each : ∀ failure ∈ failures, Accounts store item elements[failure.1]? failure.2) :
      Accounts store (.shape (.array item)) (some (.array elements)) (.inItems failures)
  /-- Alternatives that are all refused: every one of them, in their order. -/
  | union {first : Target} {rest : List Target} {candidate : Option Json}
      {failures : List (Target × Outcome)} (exactly : failures.map Prod.fst = first :: rest)
      (each : ∀ failure ∈ failures, Accounts store failure.1 candidate failure.2) :
      Accounts store (.shape (.union first rest)) candidate
        (.inAlternatives (failures.map Prod.snd))
  /-- The account of the shape inside. -/
  | wrapped {inner : Shape} {candidate : Option Json} {outcome : Outcome}
      (inside : Accounts store (.shape inner) candidate outcome) :
      Accounts store (.shape (.wrapped inner)) candidate outcome
  /-- The account of the root of a finished registry. -/
  | finished {storage : StorageId} {root : Shape} {candidate : Option Json} {outcome : Outcome}
      (inside : Accounts store (.shape root) candidate outcome) :
      Accounts store (.shape (.finished storage root)) candidate outcome
  /-- The account of the shape that a reference stands for. -/
  | reference {reference : Reference} {shape : HeldShape} {candidate : Option Json}
      {outcome : Outcome} (resolved : store.resolve reference = .ok shape)
      (inside : Accounts store (.shape shape.value) candidate outcome) :
      Accounts store (.reference reference) candidate outcome

variable {store : Store}

/-- A property is refused in a value if it is declared and the value does not conform to it. -/
theorem mem_refused_iff {properties : List Property} {value : Json} {property : Property} :
    property ∈ store.refused properties value ↔ property ∈ properties ∧
      ¬ store.Conforms property.target (property.accessor.select? value) := by
  simp only [refused, List.mem_filter, decide_eq_true_eq]

namespace Accounts

variable {target : Target} {candidate : Option Json} {outcome : Outcome}

/-- Nothing is said of a candidate without a reason. -/
theorem ne_valid (accounts : store.Accounts target candidate outcome) : outcome ≠ .valid := by
  induction accounts with
  | kind | literal | notObject | object | notArray | array | union => nofun
  | wrapped _ ih | finished _ ih | reference _ _ ih => exact ih

/-- The candidate does not conform. -/
theorem not_conforms (accounts : store.Accounts target candidate outcome) :
    ¬ store.Conforms target candidate := by
  induction accounts with
  | kind different =>
    rintro ⟨same⟩
    exact different same
  | literal refused =>
    rintro (_ | accepted)
    exact absurd (accepted.symm.trans refused) (by decide)
  | notObject different =>
    rintro (_ | _ | _)
    exact different rfl
  | @object properties members failures nonempty exactly _ _ =>
    rintro (_ | _ | each)
    obtain ⟨failure, listed⟩ := List.exists_mem_of_ne_nil failures nonempty
    have refused := mem_refused_iff.mp (exactly ▸ List.mem_map_of_mem (f := Prod.fst) listed)
    exact refused.2 (each failure.1 refused.1)
  | notArray different =>
    rintro (_ | _ | _ | _)
    exact different rfl
  | @array item elements failures nonempty _ exactly _ _ =>
    rintro (_ | _ | _ | each)
    obtain ⟨failure, listed⟩ := List.exists_mem_of_ne_nil failures nonempty
    obtain ⟨below, refused⟩ := (exactly failure.1).mp (List.mem_map_of_mem listed)
    exact refused (each _ (List.getElem_mem below))
  | @union first rest _ failures exactly _ ih =>
    rintro (_ | _ | _ | _ | ⟨member, conforms⟩)
    rw [← exactly] at member
    obtain ⟨failure, listed, rfl⟩ := List.mem_map.mp member
    exact ih failure listed conforms
  | wrapped _ ih =>
    rintro (_ | _ | _ | _ | _ | _ | conforms)
    exact ih conforms
  | finished _ ih =>
    rintro (_ | _ | _ | _ | _ | _ | _ | conforms)
    exact ih conforms
  | reference resolved _ ih =>
    rintro (_ | _ | _ | _ | _ | _ | _ | _ | ⟨found, conforms⟩)
    obtain rfl := Except.ok.inj (resolved.symm.trans found)
    exact ih conforms

/-- There is no other complete account. -/
theorem unique (accounts : store.Accounts target candidate outcome) {other : Outcome}
    (others : store.Accounts target candidate other) : other = outcome := by
  induction accounts generalizing other with
  | kind _ =>
    cases others
    rfl
  | literal _ =>
    cases others
    rfl
  | notObject different =>
    cases others with
    | notObject _ => rfl
    | object _ _ _ => exact absurd rfl different
  | object _ exactly _ ih =>
    cases others with
    | notObject different => exact absurd rfl different
    | object _ exactly' each =>
      have same := Outcome.eq_of_labels_eq (exactly.trans exactly'.symm)
        fun failure listed other listed' label =>
          ih failure listed (label ▸ each other listed')
      rw [same]
  | notArray different =>
    cases others with
    | notArray _ => rfl
    | array _ _ _ _ => exact absurd rfl different
  | array _ ascending exactly _ ih =>
    cases others with
    | notArray different => exact absurd rfl different
    | array _ ascending' exactly' each =>
      have labels := List.Pairwise.eq_of_mem_iff ascending ascending' fun position =>
        (exactly position).trans (exactly' position).symm
      rw [Outcome.eq_of_labels_eq labels fun failure listed other listed' label =>
        ih failure listed (label ▸ each other listed')]
  | union exactly _ ih =>
    cases others with
    | union exactly' each =>
      have same := Outcome.eq_of_labels_eq (exactly.trans exactly'.symm)
        fun failure listed other listed' label =>
          ih failure listed (label ▸ each other listed')
      rw [same]
  | wrapped _ ih =>
    cases others with
    | wrapped inside => exact ih inside
  | finished _ ih =>
    cases others with
    | finished inside => exact ih inside
  | reference resolved _ ih =>
    cases others with
    | reference found inside =>
      obtain rfl := Except.ok.inj (resolved.symm.trans found)
      exact ih inside

/-- What a complete account consists of are complete accounts, of other targets and candidates. -/
theorem of_hasPart (accounts : store.Accounts target candidate outcome) {part : Outcome}
    (has : outcome.HasPart part) : ∃ target candidate, store.Accounts target candidate part := by
  induction accounts with
  | kind | literal | notObject | notArray => cases has
  | object _ _ each _ =>
    cases has with
    | property member =>
      obtain ⟨failure, listed, rfl⟩ := List.mem_map.mp member
      exact ⟨_, _, each failure listed⟩
  | array _ _ _ each _ =>
    cases has with
    | item member => exact ⟨_, _, each _ member⟩
  | union _ each _ =>
    cases has with
    | alternative member =>
      obtain ⟨failure, listed, rfl⟩ := List.mem_map.mp member
      exact ⟨_, _, each failure listed⟩
  | wrapped _ ih | finished _ ih | reference _ _ ih => exact ih has

/-- No part of a complete account, at any depth, says that something is valid. -/
theorem part_ne_valid (accounts : store.Accounts target candidate outcome) {part : Outcome}
    (contains : outcome.Contains part) : part ≠ .valid := by
  have accounted : ∃ target candidate, store.Accounts target candidate part := by
    induction contains with
    | refl => exact ⟨target, candidate, accounts⟩
    | tail _ has ih =>
      obtain ⟨_, _, whole⟩ := ih
      exact whole.of_hasPart has
  obtain ⟨_, _, accounts⟩ := accounted
  exact accounts.ne_valid

end Accounts

/-- What is yielded tells whether the candidate conforms. -/
theorem Yields.isValid_iff_conforms {target : Target} {candidate : Option Json} {outcome : Outcome}
    (yields : store.Yields target candidate outcome) :
    outcome.isValid = true ↔ store.Conforms target candidate := by
  rw [Outcome.isValid_iff]
  exact ⟨conforms_of_yields yields, fun conforms => valid_of_conforms conforms yields⟩

/-- The properties with mismatches are those that are refused. -/
theorem mismatches_eq_refused {properties : List Property} {value : Json}
    {outcomes : Property → Outcome} (each : ∀ property ∈ properties,
      store.Yields property.target (property.accessor.select? value) (outcomes property)) :
    Outcome.mismatches Property.name outcomes properties =
      (store.refused properties value).map fun property => (property.name, outcomes property) := by
  rw [Outcome.mismatches, refused]
  congr 1
  apply List.filter_congr
  intro property member
  simp [← (each property member).isValid_iff_conforms]

/-- The positions with mismatches stand in ascending order. -/
theorem pairwise_lt_positions (outcomes : Json → Outcome) (elements : List Json) :
    ((Outcome.mismatches Prod.snd (fun entry => outcomes entry.1) elements.zipIdx).map
      Prod.fst).Pairwise (· < ·) := by
  have all : (elements.zipIdx.map Prod.snd).Pairwise (· < ·) := by
    rw [List.zipIdx_map_snd]
    exact List.pairwise_lt_range'
  rw [Outcome.mismatches, List.map_map]
  exact all.sublist (List.filter_sublist.map _)

/-- The positions with mismatches are those of the elements that are refused. -/
theorem mem_positions_iff {item : Target} {elements : List Json} {outcomes : Json → Outcome}
    (each : ∀ element ∈ elements, store.Yields item (some element) (outcomes element))
    (position : Nat) :
    position ∈ (Outcome.mismatches Prod.snd (fun entry => outcomes entry.1)
        elements.zipIdx).map Prod.fst ↔
      ∃ below : position < elements.length, ¬ store.Conforms item elements[position] := by
  have judged (element : Json) (member : element ∈ elements) :
      outcomes element ≠ .valid ↔ ¬ store.Conforms item element :=
    not_congr ((Outcome.isValid_iff _).symm.trans (each element member).isValid_iff_conforms)
  constructor
  · intro listed
    obtain ⟨failure, collected, rfl⟩ := List.mem_map.mp listed
    obtain ⟨⟨element, position⟩, numbered, mismatched, rfl⟩ :=
      (Outcome.mem_mismatches_iff _ _ _ _).mp collected
    obtain ⟨below, same⟩ := List.mem_zipIdx' numbered
    have refused := (judged element (same ▸ List.getElem_mem below)).mp mismatched
    exact ⟨below, same ▸ refused⟩
  · rintro ⟨below, refused⟩
    have numbered : (elements[position], position) ∈ elements.zipIdx :=
      List.mem_zipIdx_iff_getElem?.mpr (List.getElem?_eq_getElem below)
    have mismatched := (judged _ (List.getElem_mem below)).mpr refused
    exact List.mem_map_of_mem
      ((Outcome.mem_mismatches_iff _ _ _ _).mpr ⟨_, numbered, mismatched, rfl⟩)

/-- What a graph without functions yields for a candidate that it refuses is a complete account. -/
theorem accounts_of_yields {target : Target} {candidate : Option Json} {outcome : Outcome}
    (yields : store.Yields target candidate outcome)
    (declarative : ∀ node, store.Reaches target node → node.Declarative)
    (invalid : outcome ≠ .valid) : store.Accounts target candidate outcome := by
  induction yields with
  | kind _ => exact absurd rfl invalid
  | wrongKind different => exact .kind different
  | literal _ => exact absurd rfl invalid
  | wrongValue refused => exact .literal refused
  | @object properties members outcomes each ih =>
    have nonempty := mt (Outcome.ofProperties_eq_valid_iff _).mpr invalid
    rw [mismatches_eq_refused each] at nonempty
    have labelled : ((store.refused properties (.object members)).map fun property =>
        (property, outcomes property)).map (fun failure => (failure.1.name, failure.2)) =
          (store.refused properties (.object members)).map fun property =>
            (property.name, outcomes property) := List.map_map
    rw [mismatches_eq_refused each, Outcome.ofProperties_of_ne_nil nonempty, ← labelled]
    apply Accounts.object
    · exact fun none => nonempty (List.map_eq_nil_iff.mpr (List.map_eq_nil_iff.mp none))
    · rw [List.map_map]
      exact List.map_id _
    · intro failure listed
      obtain ⟨property, member, rfl⟩ := List.mem_map.mp listed
      obtain ⟨declared, refused⟩ := mem_refused_iff.mp member
      apply ih property declared (Leads.throughout (.part (.property declared)) declarative)
      exact fun valid => refused (conforms_of_yields (each property declared) valid)
  | notObject different => exact .notObject different
  | @array item elements outcomes each ih =>
    have nonempty := mt (Outcome.ofItems_eq_valid_iff _).mpr invalid
    rw [Outcome.ofItems_of_ne_nil nonempty]
    apply Accounts.array nonempty (pairwise_lt_positions outcomes elements) (mem_positions_iff each)
    intro failure listed
    obtain ⟨⟨element, position⟩, numbered, mismatched, rfl⟩ :=
      (Outcome.mem_mismatches_iff _ _ _ _).mp listed
    have found : elements[position]? = some element := List.mem_zipIdx_iff_getElem?.mp numbered
    have member := List.mem_of_getElem? found
    rw [found]
    exact ih element member (Leads.throughout (.part .item) declarative) mismatched
  | notArray different => exact .notArray different
  | chosen _ _ _ _ _ _ => exact absurd rfl invalid
  | @refused first rest candidate outcomes each refused ih =>
    have labelled : ((first :: rest).map fun target => (target, outcomes target)).map Prod.snd =
        (first :: rest).map outcomes := List.map_map
    rw [← labelled]
    apply Accounts.union
    · rw [List.map_map]
      exact List.map_id _
    · intro failure listed
      obtain ⟨target, member, rfl⟩ := List.mem_map.mp listed
      have declaratives := Leads.throughout (.part (.alternative member)) declarative
      exact ih target member declaratives (refused target member)
  | custom => exact (declarative _ .refl).elim
  | wrapped _ ih => exact .wrapped (ih (Leads.throughout (.part .inner) declarative) invalid)
  | finished _ ih => exact .finished (ih (Leads.throughout (.part .root) declarative) invalid)
  | reference resolved _ ih =>
    exact .reference resolved (ih (Leads.throughout (.entry resolved) declarative) invalid)

/-- What evaluation returns for a graph without functions is `valid`, and then the candidate
conforms, or it does not conform and the outcome is the complete account of why not. There is no
other complete account, and no part of it at any depth is `valid`. -/
theorem evaluate_eq_account (store : Store) {shape : Shape} {candidate : Option Json}
    {outcome : Outcome}
    (declarative : ∀ node, store.Reaches (.shape shape) node → node.Declarative)
    (returned : store.evaluate shape candidate = .ok outcome) :
    (outcome = .valid ∧ store.Conforms (.shape shape) candidate) ∨
      (¬ store.Conforms (.shape shape) candidate ∧
        (∀ other, store.Accounts (.shape shape) candidate other ↔ other = outcome) ∧
        ∀ part, outcome.Contains part → part ≠ .valid) := by
  have yields := store.evaluate_eq_ok_iff.mp returned
  by_cases valid : outcome = .valid
  · exact .inl ⟨valid, conforms_of_yields yields valid⟩
  · have accounts := accounts_of_yields yields declarative valid
    refine .inr ⟨accounts.not_conforms, fun other => ?_, fun _ => accounts.part_ne_valid⟩
    constructor
    · exact accounts.unique
    · rintro rfl
      exact accounts

/-- The second of three children is a tree, so the complete account of the whole names the first,
which has no list of children, and the third, which is no object. -/
theorem account_of_broken_children :
    let value : Json := .object [("children", .array [.object [],
      .object [("children", .array [])], .null])]
    let outcome : Outcome := .inProperties [("children", .inItems
      [(0, .inProperties [("children", .wrongKind .array .undefined)]),
        (2, .wrongKind .object .null)])]
    ofTrees.evaluate (.tree 0) (some value) = .ok outcome ∧
      ¬ ofTrees.Conforms (.shape (.tree 0)) (some value) ∧
      ∀ other, ofTrees.Accounts (.shape (.tree 0)) (some value) other ↔ other = outcome := by
  intro value outcome
  have declarative (node : Target) (reaches : ofTrees.Reaches (.shape (.tree 0)) node) :
      node.Declarative := by
    rcases reaches_tree rfl reaches with rfl | rfl | rfl <;> trivial
  have returned : ofTrees.evaluate (.tree 0) (some value) = .ok outcome := rfl
  have account := (evaluate_eq_account ofTrees declarative returned).resolve_left nofun
  exact ⟨returned, account.1, account.2.1⟩

end Store

end Conform

import Mathlib.Data.List.Forall2
import Conform.Proofs.Derivation
/-!
# Simulations between graphs

Two graphs may be tied together differently and yet yield the same outcomes: one has a reference
where the other one has a shape, or both run into cycles after different numbers of steps. A
simulation relates targets of the one to targets of the other so that related targets stand for
shapes of the same form, the parts of which are related again. What the one graph yields at a
target is then what the other one yields at every related target. The proof is an induction on
derivations, so it does not matter that the graphs may be cyclic.
-/

namespace Conform

open List (Forall₂)

/-- Properties with the same name and way, whose values have to be something related. -/
inductive Property.Alike (Related : Target → Target → Prop) : Property → Property → Prop
  /-- The only way to be alike. -/
  | mk {name : String} {accessor : Accessor} {target target' : Target}
      (related : Related target target') :
      Alike Related ⟨name, accessor, target⟩ ⟨name, accessor, target'⟩

/-- Shapes of the same form, whose parts are related one by one. -/
inductive Shape.Alike (Related : Target → Target → Prop) : Shape → Shape → Prop
  /-- The same kind. -/
  | kind {expected : Kind} : Alike Related (.kind expected) (.kind expected)
  /-- The same value. -/
  | literal {expected : Literal} : Alike Related (.literal expected) (.literal expected)
  /-- Objects. -/
  | object {properties properties' : List Property}
      (each : Forall₂ (Property.Alike Related) properties properties') :
      Alike Related (.object properties) (.object properties')
  /-- Arrays. -/
  | array {item item' : Target} (related : Related item item') :
      Alike Related (.array item) (.array item')
  /-- Unions. -/
  | union {first first' : Target} {rest rest' : List Target}
      (each : Forall₂ Related (first :: rest) (first' :: rest')) :
      Alike Related (.union first rest) (.union first' rest')
  /-- The same function. -/
  | custom {judge : Option Json → Outcome} : Alike Related (.custom judge) (.custom judge)
  /-- Shapes around other ones. -/
  | wrapped {inner inner' : Shape} (related : Related (.shape inner) (.shape inner')) :
      Alike Related (.wrapped inner) (.wrapped inner')
  /-- Roots of the same finished registry. -/
  | finished {storage : StorageId} {root root' : Shape}
      (related : Related (.shape root) (.shape root')) :
      Alike Related (.finished storage root) (.finished storage root')

/-- Being alike reads the same from the other side. -/
theorem Shape.Alike.flip {Related : Target → Target → Prop} {shape shape' : Shape}
    (alike : shape.Alike Related shape') : shape'.Alike (flip Related) shape := by
  cases alike with
  | kind => exact .kind
  | literal => exact .literal
  | object each =>
    refine .object (List.Forall₂.flip (each.imp ?_))
    rintro _ _ ⟨related⟩
    exact .mk related
  | array related => exact .array related
  | union each => exact .union each.flip
  | custom => exact .custom
  | wrapped related => exact .wrapped related
  | finished related => exact .finished related

/-- A shape is alike itself if its parts are related to themselves. -/
theorem Shape.Alike.of_parts {Related : Target → Target → Prop} {shape : Shape}
    (each : ∀ part, (Target.shape shape).HasPart part → Related part part) :
    shape.Alike Related shape := by
  match shape with
  | .kind _ => exact .kind
  | .literal _ => exact .literal
  | .custom _ => exact .custom
  | .wrapped _ => exact .wrapped (each _ .inner)
  | .finished _ _ => exact .finished (each _ .root)
  | .array _ => exact .array (each _ .item)
  | .union _ _ =>
    exact .union (List.forall₂_same.mpr fun _ member => each _ (.alternative member))
  | .object _ =>
    refine .object (List.forall₂_same.mpr ?_)
    rintro ⟨name, accessor, target⟩ member
    exact .mk (each target (.property member))

namespace Store

/-- A target stands for a shape: for itself, or for what a reference is resolved to. -/
inductive StandsFor (store : Store) : Target → Shape → Prop
  /-- A shape stands for itself. -/
  | shape {shape : Shape} : StandsFor store (.shape shape) shape
  /-- A reference stands for the shape under its key. -/
  | reference {reference : Reference} {shape : HeldShape}
      (resolved : store.resolve reference = .ok shape) :
      StandsFor store (.reference reference) shape.value

/-- Whatever the shape yields, the target yields that stands for it. -/
theorem StandsFor.yields {store : Store} {target : Target} {shape : Shape}
    {candidate : Option Json} {outcome : Outcome} (stands : store.StandsFor target shape)
    (yields : store.Yields (.shape shape) candidate outcome) :
    store.Yields target candidate outcome := by
  cases stands with
  | shape => exact yields
  | reference resolved => exact .reference resolved yields

/-- Related targets stand for related shapes, and related shapes have the same form. -/
structure Simulation (first second : Store) (Related : Target → Target → Prop) : Prop where
  /-- A target stands for a shape only if related targets stand for related shapes. -/
  standsFor : ∀ {target target' : Target} {shape : Shape}, Related target target' →
    first.StandsFor target shape →
      ∃ shape', second.StandsFor target' shape' ∧ Related (.shape shape) (.shape shape')
  /-- Related shapes have the same form, with related parts. -/
  alike : ∀ {shape shape' : Shape}, Related (.shape shape) (.shape shape') →
    shape.Alike Related shape'

open Classical in
/-- The outcome of a candidate under a target, where there is one. -/
noncomputable def outcomeOf (store : Store) (target : Target) (candidate : Option Json) : Outcome :=
  if yields : ∃ outcome, store.Yields target candidate outcome then yields.choose else .valid

variable {store : Store} {target : Target} {candidate : Option Json} {outcome : Outcome}

/-- What is yielded is the outcome. -/
theorem outcomeOf_eq (yields : store.Yields target candidate outcome) :
    store.outcomeOf target candidate = outcome := by
  have some : ∃ outcome, store.Yields target candidate outcome := ⟨outcome, yields⟩
  rw [outcomeOf, dif_pos some]
  exact yields.unique some.choose_spec

/-- The outcome is yielded, where anything is. -/
theorem yields_outcomeOf (yields : store.Yields target candidate outcome) :
    store.Yields target candidate (store.outcomeOf target candidate) := by
  rwa [outcomeOf_eq yields]

end Store

/-- An element in the middle of a list is matched by one in the middle of the other list. -/
theorem exists_matched_middle {α β : Type} {Matches : α → β → Prop} {before after : List α}
    {middle : α} {list : List β} (matched : Forall₂ Matches (before ++ middle :: after) list) :
    ∃ before' middle' after', list = before' ++ middle' :: after' ∧
      Forall₂ Matches before before' ∧ Matches middle middle' := by
  induction before generalizing list with
  | nil =>
    obtain ⟨middle', after', found, _, rfl⟩ := List.forall₂_cons_left_iff.mp matched
    exact ⟨[], middle', after', rfl, .nil, found⟩
  | cons first rest ih =>
    obtain ⟨first', list', here, others, rfl⟩ := List.forall₂_cons_left_iff.mp matched
    obtain ⟨before', middle', after', rfl, earlier, found⟩ := ih others
    exact ⟨first' :: before', middle', after', rfl, .cons here earlier, found⟩

/-- Every element of the other list is matched by one of the list. -/
theorem exists_matched_of_mem {α β : Type} {Matches : α → β → Prop} {list : List α}
    {list' : List β} (matched : Forall₂ Matches list list') {element : β}
    (member : element ∈ list') : ∃ other ∈ list, Matches other element := by
  induction matched with
  | nil => cases member
  | cons here _ ih =>
    rcases List.mem_cons.mp member with rfl | later
    · exact ⟨_, List.mem_cons_self, here⟩
    · obtain ⟨other, listed, found⟩ := ih later
      exact ⟨other, .tail _ listed, found⟩

/-- Mismatches are the same if the labels and the outcomes are, one by one. -/
theorem Outcome.mismatches_congr {α β γ : Type} {label : α → γ} {label' : β → γ}
    {outcomes : α → Outcome} {outcomes' : β → Outcome} {list : List α} {list' : List β}
    (same : Forall₂ (fun entry entry' =>
      label' entry' = label entry ∧ outcomes' entry' = outcomes entry) list list') :
    mismatches label' outcomes' list' = mismatches label outcomes list := by
  induction same with
  | nil => rfl
  | cons first _ ih => rw [mismatches_cons, mismatches_cons, first.1, first.2, ih]

namespace Store

/-- Alternatives that are refused one by one, like others, are all refused. -/
theorem refused_of_matched {store : Store} {candidate : Option Json}
    {targets targets' : List Target} {outcomes : Target → Outcome}
    (matched : Forall₂ (fun target target' =>
      store.Yields target' candidate (outcomes target)) targets targets')
    (refused : ∀ target ∈ targets, outcomes target ≠ .valid) :
    ∀ target' ∈ targets', store.Yields target' candidate (store.outcomeOf target' candidate) ∧
      store.outcomeOf target' candidate ≠ .valid := by
  intro target' member
  obtain ⟨target, listed, yields⟩ := exists_matched_of_mem matched member
  rw [outcomeOf_eq yields]
  exact ⟨yields, refused target listed⟩

section

variable {first second : Store} {Related : Target → Target → Prop} {target target' : Target}
  {candidate : Option Json} {outcome : Outcome}

/-- A target related to a shape yields what all shapes do that are alike. -/
theorem Simulation.yields_of_alike (simulation : Simulation first second Related) {shape : Shape}
    (related : Related (.shape shape) target')
    (carried : ∀ shape', shape.Alike Related shape' →
      second.Yields (.shape shape') candidate outcome) :
    second.Yields target' candidate outcome := by
  obtain ⟨shape', stands, related⟩ := simulation.standsFor related .shape
  exact stands.yields (carried shape' (simulation.alike related))

/-- Whatever a target yields, related targets yield. -/
theorem Simulation.yields (simulation : Simulation first second Related)
    (related : Related target target') (yields : first.Yields target candidate outcome) :
    second.Yields target' candidate outcome := by
  induction yields generalizing target' with
  | kind same =>
    apply simulation.yields_of_alike related
    rintro _ ⟨⟩
    exact .kind same
  | wrongKind different =>
    apply simulation.yields_of_alike related
    rintro _ ⟨⟩
    exact .wrongKind different
  | literal accepted =>
    apply simulation.yields_of_alike related
    rintro _ ⟨⟩
    exact .literal accepted
  | wrongValue refused =>
    apply simulation.yields_of_alike related
    rintro _ ⟨⟩
    exact .wrongValue refused
  | @object properties members outcomes _ ih =>
    apply simulation.yields_of_alike related
    intro _ alike
    cases alike with
    | @object _ properties' each =>
      have carried : Forall₂ (fun property property' => property'.name = property.name ∧
          second.Yields property'.target (property'.accessor.select? (.object members))
            (outcomes property)) properties properties' := by
        refine ((List.forall₂_and_left _ _).mpr ⟨ih, each⟩).imp ?_
        rintro property _ ⟨ih, ⟨related⟩⟩
        exact ⟨rfl, ih related⟩
      have collected : Outcome.mismatches Property.name (fun property =>
            second.outcomeOf property.target (property.accessor.select? (.object members)))
          properties' = Outcome.mismatches Property.name outcomes properties :=
        Outcome.mismatches_congr (carried.imp fun _ _ found => ⟨found.1, outcomeOf_eq found.2⟩)
      rw [← collected]
      apply Yields.object
      intro property' member
      obtain ⟨_, _, _, yields⟩ := exists_matched_of_mem carried member
      exact yields_outcomeOf yields
  | notObject different =>
    apply simulation.yields_of_alike related
    rintro _ ⟨⟩
    exact .notObject different
  | array outcomes _ ih =>
    apply simulation.yields_of_alike related
    intro _ alike
    cases alike with
    | array related => exact .array outcomes fun element member => ih element member related
  | notArray different =>
    apply simulation.yields_of_alike related
    rintro _ ⟨⟩
    exact .notArray different
  | @chosen first choice rest before after candidate split outcomes _ refused _ ih taken =>
    apply simulation.yields_of_alike related
    intro _ alike
    cases alike with
    | union each =>
      rw [split] at each
      obtain ⟨before', choice', after', split', earlier, chosen⟩ := exists_matched_middle each
      have carried : Forall₂ (fun target target' => second.Yields target' candidate
          (outcomes target)) before before' :=
        ((List.forall₂_and_left _ _).mpr ⟨ih, earlier⟩).imp fun _ _ found => found.1 found.2
      have gone := refused_of_matched carried refused
      exact .chosen split' _ (fun target' member => (gone target' member).1)
        (fun target' member => (gone target' member).2) (taken chosen)
  | @refused first rest candidate outcomes _ refused ih =>
    apply simulation.yields_of_alike related
    intro _ alike
    cases alike with
    | @union _ first' _ rest' each =>
      have carried : Forall₂ (fun target target' => second.Yields target' candidate
          (outcomes target)) (first :: rest) (first' :: rest') :=
        ((List.forall₂_and_left _ _).mpr ⟨ih, each⟩).imp fun _ _ found => found.1 found.2
      have same : (first :: rest).map outcomes =
          (first' :: rest').map (second.outcomeOf · candidate) := by
        rw [← List.forall₂_eq_eq_eq, List.forall₂_map_left_iff, List.forall₂_map_right_iff]
        exact carried.imp fun _ _ yields => (outcomeOf_eq yields).symm
      rw [same]
      have gone := refused_of_matched carried refused
      exact .refused _ (fun target' member => (gone target' member).1)
        (fun target' member => (gone target' member).2)
  | custom =>
    apply simulation.yields_of_alike related
    rintro _ ⟨⟩
    exact .custom
  | wrapped _ ih =>
    apply simulation.yields_of_alike related
    intro _ alike
    cases alike with
    | wrapped related => exact .wrapped (ih related)
  | finished _ ih =>
    apply simulation.yields_of_alike related
    intro _ alike
    cases alike with
    | finished related => exact .finished (ih related)
  | reference resolved _ ih =>
    obtain ⟨shape', stands, related⟩ := simulation.standsFor related (.reference resolved)
    exact stands.yields (ih related)

/-- Where simulations lead from each graph to the other one, related shapes evaluate alike. -/
theorem evaluate_eq_ok_iff_of_simulations (forth : Simulation first second Related)
    (back : Simulation second first (flip Related)) {shape shape' : Shape}
    (related : Related (.shape shape) (.shape shape')) :
    first.evaluate shape candidate = .ok outcome ↔
      second.evaluate shape' candidate = .ok outcome := by
  rw [evaluate_eq_ok_iff, evaluate_eq_ok_iff]
  exact ⟨forth.yields related, back.yields related⟩

end

end Store

end Conform

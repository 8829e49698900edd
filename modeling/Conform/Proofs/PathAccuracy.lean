import Conform.Proofs.Derivation
import Conform.Proofs.Graph
import Conform.Proofs.Mismatch
/-!
# Paths lead to what diagnostics are about

Evaluation descends into a candidate and its outcome remembers how, and a describer turns that
into paths. For graphs that descend by field and index only, the three stay in step: the path of
every diagnostic leads from the candidate to exactly the value that the mismatch is about, also
where the way ends early because a member is absent.
-/

namespace Conform

/-- A node that descends by field and index only, if at all: no function judges, and every property
is the member of its name. -/
def Target.Plain : Target → Prop
  | .shape (.custom _) => False
  | .shape (.object properties) =>
    ∀ property ∈ properties, property = .field property.name property.target
  | _ => True

/-- The accessor of a field selects the member. -/
theorem Property.select?_of_eq_field {property : Property}
    (field : property = .field property.name property.target) (value : Json) :
    property.accessor.select? value = value.select? (.field property.name) := by
  have selected := congrArg (fun each : Property => each.accessor.select? value) field
  simpa [Property.field, Accessor.ofSteps, Json.at?] using selected

/-- A mismatch is about a candidate: it has this kind or value, and another one was expected. -/
def Mismatch.About (found : Option Json) : Mismatch → Prop
  | .kind expected actual => actual = Kind.of found ∧ actual ≠ expected
  | .value expected actual => actual = Literal.of found ∧ expected.accepts found = false

namespace Outcome

/-- Every mismatch in an outcome is about what the steps to it lead to. -/
def Accurate (candidate : Option Json) (outcome : Outcome) : Prop :=
  ∀ entry ∈ outcome.located, entry.2.About (candidate.bind (Json.at? entry.1))

variable {candidate : Option Json}

/-- An outcome without mismatches is accurate. -/
theorem accurate_valid : Accurate candidate .valid := nofun

/-- A mismatch of kind is accurate where it was found. -/
theorem accurate_wrongKind {expected : Kind} (different : Kind.of candidate ≠ expected) :
    Accurate candidate (.wrongKind expected (Kind.of candidate)) := by
  intro entry member
  obtain rfl := List.mem_singleton.mp member
  cases candidate <;> exact ⟨rfl, different⟩

/-- A mismatch of value is accurate where it was found. -/
theorem accurate_wrongValue {expected : Literal}
    (refused : expected.accepts candidate = false) :
    Accurate candidate (.wrongValue expected (Literal.of candidate)) := by
  intro entry member
  obtain rfl := List.mem_singleton.mp member
  cases candidate <;> exact ⟨rfl, refused⟩

/-- What is accurate for the part that a step leads to is accurate one step further up. -/
theorem about_of_mem_afterStep {value : Json} {step : Step} {outcome : Outcome}
    (accurate : Accurate (value.select? step) outcome) {entry : List Step × Mismatch}
    (member : entry ∈ afterStep step outcome.located) :
    entry.2.About ((some value).bind (Json.at? entry.1)) := by
  obtain ⟨inner, listed, rfl⟩ := List.mem_map.mp member
  exact accurate inner listed

/-- Properties are accurate if each of them is at its member. -/
theorem accurate_ofProperties {value : Json} {properties : List (String × Outcome)}
    (each : ∀ entry ∈ properties, Accurate (value.select? (.field entry.1)) entry.2) :
    Accurate (some value) (ofProperties properties) := by
  cases properties with
  | nil => exact accurate_valid
  | cons first rest =>
    intro entry member
    change entry ∈ (inProperties (first :: rest)).located at member
    rw [located_inProperties] at member
    obtain ⟨property, listed, inside⟩ := List.mem_flatMap.mp member
    exact about_of_mem_afterStep (each property listed) inside

/-- Items are accurate if each of them is at its element. -/
theorem accurate_ofItems {value : Json} {items : List (Nat × Outcome)}
    (each : ∀ entry ∈ items, Accurate (value.select? (.index entry.1)) entry.2) :
    Accurate (some value) (ofItems items) := by
  cases items with
  | nil => exact accurate_valid
  | cons first rest =>
    intro entry member
    change entry ∈ (inItems (first :: rest)).located at member
    rw [located_inItems] at member
    obtain ⟨item, listed, inside⟩ := List.mem_flatMap.mp member
    exact about_of_mem_afterStep (each item listed) inside

/-- Alternatives are accurate if each of them is at the candidate itself. -/
theorem accurate_inAlternatives {parts : List Outcome}
    (each : ∀ part ∈ parts, Accurate candidate part) :
    Accurate candidate (.inAlternatives parts) := by
  intro entry member
  rw [located_inAlternatives] at member
  obtain ⟨part, listed, inside⟩ := List.mem_flatMap.mp member
  exact each part listed entry inside

end Outcome

namespace Store

variable {store : Store}

/-- What a plain graph yields is accurate. -/
theorem accurate_of_yields {target : Target} {candidate : Option Json} {outcome : Outcome}
    (yields : store.Yields target candidate outcome)
    (plain : ∀ node, store.Reaches target node → node.Plain) :
    outcome.Accurate candidate := by
  induction yields with
  | kind _ => exact Outcome.accurate_valid
  | wrongKind different => exact Outcome.accurate_wrongKind different
  | literal _ => exact Outcome.accurate_valid
  | wrongValue refused => exact Outcome.accurate_wrongValue refused
  | @object properties members outcomes _ ih =>
    apply Outcome.accurate_ofProperties
    intro entry listed
    obtain ⟨property, member, _, rfl⟩ := (Outcome.mem_mismatches_iff _ _ _ _).mp listed
    have accurate := ih property member (Leads.throughout (.part (.property member)) plain)
    rwa [Property.select?_of_eq_field (plain _ .refl property member)] at accurate
  | notObject different => exact Outcome.accurate_wrongKind different
  | @array item elements outcomes _ ih =>
    apply Outcome.accurate_ofItems
    intro entry listed
    obtain ⟨⟨element, position⟩, numbered, _, rfl⟩ := (Outcome.mem_mismatches_iff _ _ _ _).mp listed
    have found : elements[position]? = some element := List.mem_zipIdx_iff_getElem?.mp numbered
    have accurate := ih element (List.mem_of_getElem? found) (Leads.throughout (.part .item) plain)
    rwa [← found] at accurate
  | notArray different => exact Outcome.accurate_wrongKind different
  | chosen _ _ _ _ _ _ => exact Outcome.accurate_valid
  | refused outcomes _ _ ih =>
    apply Outcome.accurate_inAlternatives
    intro part listed
    obtain ⟨target, member, rfl⟩ := List.mem_map.mp listed
    exact ih target member (Leads.throughout (.part (.alternative member)) plain)
  | custom => exact (plain _ .refl).elim
  | wrapped _ ih => exact ih (Leads.throughout (.part .inner) plain)
  | finished _ ih => exact ih (Leads.throughout (.part .root) plain)
  | reference resolved _ ih => exact ih (Leads.throughout (.entry resolved) plain)

end Store

/-- The diagnostics of what evaluation returns are, one by one and in order, those of the
mismatches in it, and the path of each leads from the candidate to the value that the mismatch is
about: a mismatch of kind has the kind of that value, which is not the expected one, and a mismatch
of value has that value itself, which the expected one does not accept. -/
theorem Store.diagnostics_lead_to_mismatches (store : Store) {shape : Shape}
    {candidate : Option Json} {outcome : Outcome}
    (plain : ∀ node, store.Reaches (.shape shape) node → node.Plain)
    (returned : store.evaluate shape candidate = .ok outcome) (describer : Describer)
    (root : String) :
    ((describer.diagnostics outcome root).map Diagnostics.toList).getD [] =
        outcome.located.map (fun leaf => describer.diagnostic ⟨root, leaf.1⟩ leaf.2) ∧
      ∀ leaf ∈ outcome.located, leaf.2.About (candidate.bind (Json.at? leaf.1)) := by
  constructor
  · rw [Describer.toList_diagnostics]
    rfl
  · exact accurate_of_yields (store.evaluate_eq_ok_iff.mp returned) plain

/-- The shape of trees descends by field and index only. -/
theorem Store.plain_of_reaches_tree {node : Target}
    (reaches : Store.ofTrees.Reaches (.shape (.tree 0)) node) : node.Plain := by
  rcases Store.reaches_tree rfl reaches with rfl | rfl | rfl
  · rintro property member
    obtain rfl := List.mem_singleton.mp member
    rfl
  · trivial
  · trivial

/-- Where the second child of a tree has no list of children, there is one diagnostic, and its path
leads to the place where the list is missing. -/
theorem Store.diagnostics_lead_to_missing_children :
    let value : Json := .object [("children", .array [.object [("children", .array [])],
      .object []])]
    let outcome : Outcome := .inProperties [("children", .inItems [(1, .inProperties
      [("children", .wrongKind .array .undefined)])])]
    let steps : List Step := [.field "children", .index 1, .field "children"]
    Store.ofTrees.evaluate (.tree 0) (some value) = .ok outcome ∧
      ((({} : Describer).diagnostics outcome "value").map Diagnostics.toList).getD [] =
        [({} : Describer).diagnostic ⟨"value", steps⟩ (.kind .array .undefined)] ∧
      Mismatch.About (value.at? steps) (.kind .array .undefined) := by
  intro value outcome steps
  have returned : Store.ofTrees.evaluate (.tree 0) (some value) = .ok outcome := rfl
  obtain ⟨listed, about⟩ := Store.ofTrees.diagnostics_lead_to_mismatches
    (fun _ => Store.plain_of_reaches_tree) returned {} "value"
  exact ⟨returned, listed, about (steps, _) List.mem_cons_self⟩

end Conform

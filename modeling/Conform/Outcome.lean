import Conform.Literal
/-!
# Outcomes

An outcome says that a candidate is valid or keeps every mismatch in a tree. The leaves of the
tree are mismatches of kind and of value; its inner nodes say in which properties, which
alternatives or which items of the candidate they were found.
-/

namespace Conform

/-- What a check finds out about a candidate. -/
inductive Outcome where
  /-- No mismatch. -/
  | valid
  /-- A candidate of another kind. -/
  | wrongKind (expected actual : Kind)
  /-- A candidate with another value. -/
  | wrongValue (expected actual : Literal)
  /-- Mismatches in properties, by name. -/
  | inProperties (properties : List (String × Outcome))
  /-- No alternative fits; the mismatches of each. -/
  | inAlternatives (parts : List Outcome)
  /-- Mismatches in array items, by index. -/
  | inItems (items : List (Nat × Outcome))

namespace Outcome

/-- Whether no mismatch was found. -/
def isValid : Outcome → Bool
  | .valid => true
  | _ => false

/-- There is one outcome without a mismatch. -/
theorem isValid_iff (outcome : Outcome) : outcome.isValid = true ↔ outcome = .valid := by
  cases outcome <;> simp [isValid]

mutual

/-- The number of mismatches of kind and of value in the tree. -/
def leafCount : Outcome → Nat
  | .valid => 0
  | .wrongKind _ _ => 1
  | .wrongValue _ _ => 1
  | .inProperties properties => propertiesLeafCount properties
  | .inAlternatives parts => partsLeafCount parts
  | .inItems items => itemsLeafCount items

/-- The mismatches in properties. -/
def propertiesLeafCount : List (String × Outcome) → Nat
  | [] => 0
  | (_, outcome) :: rest => leafCount outcome + propertiesLeafCount rest

/-- The mismatches of alternatives. -/
def partsLeafCount : List Outcome → Nat
  | [] => 0
  | outcome :: rest => leafCount outcome + partsLeafCount rest

/-- The mismatches in items. -/
def itemsLeafCount : List (Nat × Outcome) → Nat
  | [] => 0
  | (_, outcome) :: rest => leafCount outcome + itemsLeafCount rest

end

mutual

/-- Equal trees; a leaf with the undefined number equals no other. -/
def beq : Outcome → Outcome → Bool
  | .valid, .valid => true
  | .wrongKind expected actual, .wrongKind expected' actual' =>
    expected == expected' && actual == actual'
  | .wrongValue expected actual, .wrongValue expected' actual' =>
    expected == expected' && actual == actual'
  | .inProperties left, .inProperties right => beqProperties left right
  | .inAlternatives left, .inAlternatives right => beqParts left right
  | .inItems left, .inItems right => beqItems left right
  | _, _ => false

/-- Equal properties in the same order. -/
def beqProperties : List (String × Outcome) → List (String × Outcome) → Bool
  | [], [] => true
  | (name, left) :: lefts, (other, right) :: rights =>
    name == other && beq left right && beqProperties lefts rights
  | _, _ => false

/-- Equal parts in the same order. -/
def beqParts : List Outcome → List Outcome → Bool
  | [], [] => true
  | left :: lefts, right :: rights => beq left right && beqParts lefts rights
  | _, _ => false

/-- Equal items in the same order. -/
def beqItems : List (Nat × Outcome) → List (Nat × Outcome) → Bool
  | [], [] => true
  | (index, left) :: lefts, (other, right) :: rights =>
    index == other && beq left right && beqItems lefts rights
  | _, _ => false

end

instance : BEq Outcome := ⟨beq⟩

end Outcome

end Conform

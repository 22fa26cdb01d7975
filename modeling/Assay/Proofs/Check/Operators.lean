import Assay.Proofs.Check.Satisfaction

namespace Assay

namespace Operator

/-- Operators whose operand is an expectation in its turn. -/
def isNested : Operator → Bool
  | every | any | negation => true
  | _ => false

end Operator

namespace Check

/-- An operator is applied to an operand by an expectation: by one of its own conditions, or by what
it expects of a field, of the items or under a negation. -/
inductive Applies (op : Operator) (operand : Value) : Value → Prop
  | here {key : String} {fields : Fields} (mem : (key, operand) ∈ fields)
    (name : Operator.ofName? key = some op) : Applies op operand (.object fields)
  | inside {key : String} {condition : Value} {fields : Fields} (mem : (key, condition) ∈ fields)
    (nested : (Operator.ofName? key).all Operator.isNested) (part : Applies op operand condition) :
    Applies op operand (.object fields)

theorem applies_object {op : Operator} {operand : Value} {fields : Fields} :
    Applies op operand (.object fields) ↔ ∃ f ∈ fields,
      (Operator.ofName? f.1 = some op ∧ operand = f.2) ∨
        ((Operator.ofName? f.1).all Operator.isNested ∧ Applies op operand f.2) := by
  constructor
  · rintro (⟨mem, name⟩ | ⟨mem, nested, part⟩)
    · exact ⟨_, mem, .inl ⟨name, rfl⟩⟩
    · exact ⟨_, mem, .inr ⟨nested, part⟩⟩
  · rintro ⟨⟨key, condition⟩, mem, ⟨name, rfl⟩ | ⟨nested, part⟩⟩
    · exact .here mem name
    · exact .inside mem nested part

variable {key path : String} {condition : Value} {actual : Option Value} {items : List Value}
  {op : Operator}

theorem evaluate_alone [Libraries] (h : Operator.ofName? key = some op) :
    evaluate (.object [(key, condition)]) actual path =
      evaluateFields [(key, condition)] true actual path := by
  rw [evaluate_object (List.cons_ne_nil _ _),
    if_pos (by simp [hasOperator, Operator.isOperator_of_ofName? h])]

end Check

end Assay

import Assay.Libraries.BuiltIn
import Assay.Proofs.Check.Conditions

namespace Assay.Check

mutual

/-- An expectation that has nothing to check in a value: it is made of conditions, all of them
idle. -/
inductive Unchecked : Value → Value → Prop
  | intro {fields : Fields} {v : Value} (any : fields ≠ []) (idle : ∀ f ∈ fields, Idle f v) :
      Unchecked (.object fields) v

/-- A condition that comes to no check: a length without comparisons, a negation of what has nothing
to check, or a field in which there is nothing to check. -/
inductive Idle : String × Value → Value → Prop
  | length {key : String} {v : Value} (name : Operator.ofName? key = some .length)
      (measured : v.length?.isSome) : Idle (key, .object []) v
  | negation {key : String} {e v : Value} (name : Operator.ofName? key = some .negation)
      (inner : Unchecked e v) : Idle (key, e) v
  | field {key : String} {e v child : Value} (name : Operator.ofName? key = none)
      (found : v.child? key = some child) (inner : Unchecked e child) : Idle (key, e) v

end

variable {key : String} {condition : Value} {fs : Fields} {v : Value} {actual : Option Value}
  {path : String}

theorem Idle.operator (h : Idle (key, condition) v) :
    Operator.ofName? key = none ∨ Operator.ofName? key = some .length ∨
      Operator.ofName? key = some .negation := by
  cases h with
  | length name => exact .inr (.inl name)
  | negation name => exact .inr (.inr name)
  | field name => exact .inl name

theorem Unchecked.isConditional (h : Unchecked (.object fs) v) :
    (hasOperator fs || v.isContainer) = true := by
  obtain ⟨any, idle⟩ := h
  obtain ⟨f, rest, rfl⟩ := List.exists_cons_of_ne_nil any
  have hfirst := idle f List.mem_cons_self
  cases hfirst with
  | length name => simp [hasOperator, Operator.isOperator_of_ofName? name]
  | negation name => simp [hasOperator, Operator.isOperator_of_ofName? name]
  | field _ found => simp [Value.isContainer_of_child? found]

theorem checkLength_eq_nil :
    checkLength actual condition path = [] ↔
      condition = .object [] ∧ ∃ v, actual = some v ∧ v.length?.isSome := by
  unfold checkLength
  cases hlength : actual.bind Value.length? with
  | none =>
    have hnone : ¬ ∃ v, actual = some v ∧ v.length?.isSome := by
      rintro ⟨v, rfl, hv⟩
      rw [Option.bind_some] at hlength
      simp [hlength] at hv
    simp [hnone]
  | some n =>
    obtain ⟨v, rfl, hv⟩ := Option.bind_eq_some_iff.mp hlength
    cases condition <;> simp [hv]

theorem condition_eq_nil [Libraries]
    (inner : ∀ actual path, evaluate condition actual path = .ok [] ↔
      ∃ v, actual = some v ∧ Unchecked condition v) :
    evaluateFields [(key, condition)] true actual path = .ok [] ↔
      ∃ v, actual = some v ∧ Idle (key, condition) v := by
  cases hop : Operator.ofName? key with
  | none =>
    rw [evaluateFields_field hop, inner]
    constructor
    · rintro ⟨child, hchild, hunchecked⟩
      obtain ⟨v, rfl, hfound⟩ := Option.bind_eq_some_iff.mp hchild
      exact ⟨v, rfl, .field hop hfound hunchecked⟩
    · rintro ⟨v, rfl, hidle⟩
      cases hidle with
      | field _ found hunchecked => exact ⟨_, found, hunchecked⟩
      | length name | negation name => simp [hop] at name
  | some op =>
    by_cases hlength : op = .length
    · subst hlength
      rw [evaluateFields_length hop, Except.ok.injEq, checkLength_eq_nil]
      constructor
      · rintro ⟨rfl, v, rfl, hv⟩
        exact ⟨v, rfl, .length hop hv⟩
      · rintro ⟨v, rfl, hidle⟩
        cases hidle with
        | length _ measured => exact ⟨rfl, v, rfl, measured⟩
        | negation name | field name => simp [hop] at name
    by_cases hnegation : op = .negation
    · subst hnegation
      rw [evaluateFields_negation hop, map_eq_ok]
      constructor
      · rintro ⟨cs, hcs, hnil⟩
        rw [List.map_eq_nil_iff] at hnil
        subst hnil
        obtain ⟨v, rfl, hunchecked⟩ := (inner _ _).mp hcs
        exact ⟨v, rfl, .negation hop hunchecked⟩
      · rintro ⟨v, rfl, hidle⟩
        cases hidle with
        | negation _ hunchecked => exact ⟨[], (inner _ _).mpr ⟨v, rfl, hunchecked⟩, rfl⟩
        | length name | field name => simp [hop] at name
    · constructor
      · intro h
        cases length_of_evaluateFields hop hlength hnegation h
      · rintro ⟨v, rfl, hidle⟩
        have hoperator := hidle.operator
        simp [hop, hlength, hnegation] at hoperator

mutual

/-- An evaluation comes to no check just when there is nothing to check in the value. -/
theorem evaluate_eq_nil [Libraries] (expected : Value) {actual : Option Value} {path : String} :
    evaluate expected actual path = .ok [] ↔ ∃ v, actual = some v ∧ Unchecked expected v :=
  match expected with
  | .object (f :: fs) => by
    rw [evaluate_object (List.cons_ne_nil f fs)]
    split
    · rw [evaluateFields_eq_nil (f :: fs)]
      constructor
      · intro h
        obtain ⟨v, rfl, -⟩ := h f List.mem_cons_self
        refine ⟨v, rfl, .intro (List.cons_ne_nil f fs) fun g hg => ?_⟩
        obtain ⟨w, hw, hidle⟩ := h g hg
        cases hw
        exact hidle
      · rintro ⟨v, rfl, hunchecked⟩ g hg
        cases hunchecked with
        | intro _ idle => exact ⟨v, rfl, idle g hg⟩
    · next hplain =>
      constructor
      · nofun
      · rintro ⟨v, rfl, hunchecked⟩
        exact absurd hunchecked.isConditional hplain
  | .object [] => by
    constructor
    · nofun
    · rintro ⟨v, -, ⟨any, -⟩⟩
      exact absurd rfl any
  | .null | .bool _ | .number _ | .string _ | .array _ => by
    constructor
    · nofun
    · rintro ⟨v, -, hunchecked⟩
      cases hunchecked
termination_by structural expected

theorem evaluateFields_eq_nil [Libraries] (fields : List (String × Value)) {actual : Option Value}
    {path : String} :
    evaluateFields fields true actual path = .ok [] ↔
      ∀ f ∈ fields, ∃ v, actual = some v ∧ Idle f v :=
  match fields with
  | [] => by simp [evaluateFields_nil]
  | (key, condition) :: fs => by
    have hjoin : evaluateFields ((key, condition) :: fs) true actual path = .ok [] ↔
        evaluateFields [(key, condition)] true actual path = .ok [] ∧
          evaluateFields fs true actual path = .ok [] := by
      rw [evaluateFields_cons]
      constructor
      · intro h
        obtain ⟨first, hfirst, h⟩ := bind_eq_ok.mp h
        obtain ⟨rest, hrest, h⟩ := bind_eq_ok.mp h
        obtain ⟨rfl, rfl⟩ := List.append_eq_nil_iff.mp (Except.ok.inj h)
        exact ⟨hfirst, hrest⟩
      · rintro ⟨hfirst, hrest⟩
        rw [hfirst, hrest]
        rfl
    rw [hjoin, condition_eq_nil fun _ _ => evaluate_eq_nil condition, evaluateFields_eq_nil fs,
      List.forall_mem_cons]
termination_by structural fields

end

/-- The expectation itself, and what its fields expect. -/
inductive Within (inner : Value) : Value → Prop
  | self : Within inner inner
  | field {f : String × Value} {fields : Fields} (mem : f ∈ fields) (part : Within inner f.2) :
      Within inner (.object fields)

/-- Somewhere in the expectation a length is asked for without saying which. -/
def HasBareLength (expected : Value) : Prop :=
  ∃ fields, Within (.object fields) expected ∧ ("length", .object []) ∈ fields

theorem HasBareLength.within {inner expected : Value} (h : HasBareLength inner)
    (part : Within inner expected) : HasBareLength expected := by
  induction part with
  | self => exact h
  | field mem _ ih =>
    obtain ⟨fields, hpart, hmem⟩ := ih
    exact ⟨fields, .field mem hpart, hmem⟩

theorem hasBareLength_object {fields : Fields} :
    HasBareLength (.object fields) ↔
      ("length", .object []) ∈ fields ∨ ∃ f ∈ fields, HasBareLength f.2 := by
  constructor
  · rintro ⟨inner, hpart, hmem⟩
    cases hpart with
    | self => exact .inl hmem
    | field hf hpart => exact .inr ⟨_, hf, inner, hpart, hmem⟩
  · rintro (hmem | ⟨f, hf, hlength⟩)
    · exact ⟨fields, .self, hmem⟩
    · exact hlength.within (.field hf .self)

theorem hasBareLength_number {n : Number} : ¬ HasBareLength (.number n) := by
  rintro ⟨fields, hpart, -⟩
  cases hpart

mutual

theorem Unchecked.hasBareLength {e v : Value} : Unchecked e v → HasBareLength e
  | .intro any idle => by
    obtain ⟨f, hf⟩ := List.exists_mem_of_ne_nil _ any
    exact (idle f hf).hasBareLength hf

theorem Idle.hasBareLength {f : String × Value} {fields : Fields} {v : Value} (h : Idle f v)
    (hf : f ∈ fields) : HasBareLength (.object fields) := by
  rw [hasBareLength_object]
  match h with
  | .length name _ =>
    rw [← Operator.name_of_ofName? name] at hf
    exact .inl hf
  | .negation _ inner | .field _ _ inner => exact .inr ⟨_, hf, inner.hasBareLength⟩

end

/-- An evaluation comes to no check just when there is nothing to check in the value, and that is
only so where a length is asked for without saying which. -/
theorem evaluate_checks [Libraries] (expected : Value) :
    (∀ actual path, evaluate expected actual path = .ok [] ↔
      ∃ v, actual = some v ∧ Unchecked expected v) ∧
    (¬ HasBareLength expected → ∀ inner, Within inner expected → ∀ actual path cs,
      evaluate inner actual path = .ok cs → cs ≠ []) := by
  refine ⟨fun actual path => evaluate_eq_nil expected, ?_⟩
  rintro hlength inner hpart actual path cs hcs rfl
  obtain ⟨v, -, hunchecked⟩ := (evaluate_eq_nil inner).mp hcs
  exact hlength (hunchecked.hasBareLength.within hpart)

/-- A length that is bounded is checked, of a list as of what is not there. -/
theorem evaluate_checks_bounded :
    let length : Value := .object [("length", .object [("gt", .nat 0)])]
    let expected : Value := .object [("items", length)]
    ¬ HasBareLength expected ∧ Within length expected ∧
      ∀ actual path cs, evaluate length actual path = .ok cs → cs ≠ [] := by
  intro length expected
  have hlength : ¬ HasBareLength expected := by
    simp [expected, length, hasBareLength_object, Value.nat, hasBareLength_number]
  have hpart : Within length expected := .field List.mem_cons_self .self
  exact ⟨hlength, hpart, (evaluate_checks expected).2 hlength length hpart⟩

/-- A bare length comes to no check, and with it all that is made of it. -/
theorem bare_length_unchecked :
    ¬ ∀ expected actual path cs, evaluate expected actual path = .ok cs → cs ≠ [] := by
  intro h
  exact h (.object [("length", .object [])]) (some (.array [])) "body" [] rfl rfl

end Assay.Check

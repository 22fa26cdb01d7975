import Assay.Libraries.BuiltIn
import Assay.Proofs.Check.Conditions

namespace Assay.Check

variable {fields rest before after : Fields} {key : String} {condition : Value}
  {actual : Option Value} {path : String} {cs ds : List Check}

/-- Some conditions among others come to the checks that they come to with the others. -/
theorem evaluateFields_sublist [Libraries] (h : rest.Sublist fields)
    (hcs : evaluateFields fields true actual path = .ok cs) :
    ∃ ds, evaluateFields rest true actual path = .ok ds ∧ ds.Sublist cs := by
  induction h generalizing cs with
  | slnil => exact ⟨cs, hcs, .refl cs⟩
  | cons f h ih =>
    obtain ⟨own, others, -, hothers, rfl⟩ := parts_of_evaluateFields hcs
    obtain ⟨ds, hds, hsub⟩ := ih hothers
    exact ⟨ds, hds, hsub.trans (List.sublist_append_right own others)⟩
  | cons_cons f h ih =>
    obtain ⟨own, others, hown, hothers, rfl⟩ := parts_of_evaluateFields hcs
    obtain ⟨ds, hds, hsub⟩ := ih hothers
    refine ⟨own ++ ds, ?_, hsub.append_left own⟩
    rw [evaluateFields_cons, hown, hds]
    rfl

theorem hasOperator_insert :
    hasOperator (before ++ (key, condition) :: after) =
      (hasOperator (before ++ after) || (Operator.ofName? key).isSome) := by
  simp [hasOperator, Operator.isSome_ofName?, Bool.or_left_comm, Bool.or_comm]

theorem allPassed_of_sublist (h : ds.Sublist cs) (hcs : allPassed cs) : allPassed ds := by
  unfold allPassed at hcs ⊢
  rw [List.all_eq_true] at hcs ⊢
  exact fun c hc => hcs c (h.mem hc)

/-- Fields of which none is an operator only pass where there are parts to look into. -/
theorem isConditional_of_allPassed [Libraries] (hfields : fields ≠ [])
    (hcs : evaluate (.object fields) actual path = .ok cs) (hpass : allPassed cs) :
    hasOperator fields || actual.any Value.isContainer := by
  rw [evaluate_object hfields] at hcs
  split at hcs
  next h => exact h
  next =>
    cases hcs
    cases hpass

/-- What passes with a further condition passes without it, as long as it is still conditions on the
value that are left, or fields of something that has parts. Else the fields that are left are those
of an object, which the value is not. -/
theorem evaluate_strengthens [Libraries] (hrest : before ++ after ≠ [])
    (hcs : evaluate (.object (before ++ (key, condition) :: after)) actual path = .ok cs)
    (hpass : allPassed cs) :
    (hasOperator (before ++ after) ∨ Operator.ofName? key = none ∨
        actual.any Value.isContainer →
      ∃ ds, evaluate (.object (before ++ after)) actual path = .ok ds ∧ ds.Sublist cs ∧
        allPassed ds) ∧
    (¬ (hasOperator (before ++ after) ∨ Operator.ofName? key = none ∨
        actual.any Value.isContainer) →
      evaluate (.object (before ++ after)) actual path =
        .ok [notAnObject actual (.object (before ++ after)) path]) := by
  have hall : before ++ (key, condition) :: after ≠ [] := by simp
  have hwith := isConditional_of_allPassed hall hcs hpass
  rw [evaluate_object hall, if_pos hwith] at hcs
  rw [evaluate_object hrest]
  constructor
  · intro h
    have hwithout : (hasOperator (before ++ after) || actual.any Value.isContainer) = true := by
      rw [hasOperator_insert] at hwith
      rcases h with hoperator | hname | hcontainer
      · simp [hoperator]
      · simpa [hname] using hwith
      · simp [hcontainer]
    rw [if_pos hwithout]
    have hsub : (before ++ after).Sublist (before ++ (key, condition) :: after) :=
      (List.sublist_cons_self _ after).append_left before
    obtain ⟨ds, hds, hsub⟩ := evaluateFields_sublist hsub hcs
    exact ⟨ds, hds, hsub, allPassed_of_sublist hsub hpass⟩
  · intro h
    obtain ⟨hoperator, -, hcontainer⟩ : hasOperator (before ++ after) ≠ true ∧
        Operator.ofName? key ≠ none ∧ actual.any Value.isContainer ≠ true := by
      simpa only [not_or] using h
    rw [if_neg (by simp [hoperator, hcontainer])]

/-- A kind may be left out of what is asked of an object, but not of what is asked of a text. -/
theorem evaluate_strengthens_kind :
    let ready : Fields := [("ready", .bool true)]
    let absent : Fields := [("ready", .object [("exists", .bool false)])]
    (∃ ds, evaluate (.object ready) (some (.object ready)) "body" = .ok ds ∧ allPassed ds) ∧
      evaluate (.object absent) (some (.string "up")) "body" =
        .ok [notAnObject (some (.string "up")) (.object absent) "body"] := by
  intro ready absent
  have hready := @evaluate_strengthens ready [] "type" (.string "object") (some (.object ready))
    "body" _ _ (List.cons_ne_nil _ _) rfl rfl
  have habsent := @evaluate_strengthens absent [] "type" (.string "string") (some (.string "up"))
    "body" _ _ (List.cons_ne_nil _ _) rfl rfl
  have hkind : ¬ (hasOperator absent ∨ Operator.ofName? "type" = none ∨
      (some (Value.string "up")).any Value.isContainer) := by decide
  obtain ⟨ds, hds, -, hpass⟩ := hready.1 (.inr (.inr rfl))
  exact ⟨⟨ds, hds, hpass⟩, habsent.2 hkind⟩

/-- A number has no field, which holds of it when its kind is asked for too and fails otherwise. -/
theorem field_of_number_fails :
    ¬ ∀ actual fields key condition path cs, fields ≠ [] →
      evaluate (.object (fields ++ [(key, condition)])) actual path = .ok cs → allPassed cs →
      ∃ ds, evaluate (.object fields) actual path = .ok ds ∧ allPassed ds := by
  intro h
  obtain ⟨ds, hds, hpass⟩ := h (some (.nat 5)) [("a", .object [("exists", .bool false)])] "type"
    (.string "number") "body" _ (List.cons_ne_nil _ _) rfl rfl
  cases hds
  cases hpass

end Assay.Check

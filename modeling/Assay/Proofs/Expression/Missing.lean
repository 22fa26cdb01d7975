import Assay.Proofs.Expression.Literal

namespace Assay.Expression

open Text (trimChars)

variable {r : Response} {cs s : List Char} {c q : Char} {l : Leaf} {left right : Option Value}

/-- What stands for itself: a word, a text between two quotation marks of one kind, or a numeral. -/
inductive IsLiteral : List Char → Prop
  | word {w : String} (h : w = "true" ∨ w = "false" ∨ w = "null") : IsLiteral w.toList
  | quoted {q : Char} (hq : IsQuote q) (cs : List Char) : IsLiteral (q :: (cs ++ [q]))
  | numeral {cs : List Char} {v : Value} (h : numeral? cs = some v) : IsLiteral cs

theorem not_isLiteral_head (hquote : ¬ IsQuote c) (hdigit : c.isDigit = false)
    (hmark : c ∉ ['+', '-', '.', 't', 'f', 'n']) (hname : c.toLower ∉ ['i', 'n']) (cs : List Char) :
    ¬ IsLiteral (c :: cs) := by
  generalize htoken : c :: cs = token
  intro h
  cases h with
  | word h =>
    rcases h with rfl | rfl | rfl <;>
      exact absurd (List.cons.inj htoken).1 (by rintro rfl; exact hmark (by decide))
  | quoted hq => exact absurd (List.cons.inj htoken).1 (hq.ne hquote).symm
  | numeral h =>
    rw [← htoken, numeral?_head hdigit (by simp_all) hname] at h
    cases h

theorem quoted?_eq_some : quoted? cs = some s ↔ ∃ q, IsQuote q ∧ cs = q :: (s ++ [q]) := by
  constructor
  · intro h
    cases cs with
    | nil => cases h
    | cons q ds =>
      rw [quoted?] at h
      split at h
      · next hmarks =>
        obtain rfl := Option.some.inj h
        refine ⟨q, hmarks.1.symm, ?_⟩
        rw [List.dropLast_append_getLast?]
        exact hmarks.2
      · cases h
  · rintro ⟨q, hq, rfl⟩
    exact quoted?_enclosed hq

theorem pathValue_trimChars : pathValue r (trimChars cs) = pathValue r cs := by
  unfold pathValue
  rw [Text.trimChars_trimChars]

theorem IsLiteral.operandValue (h : IsLiteral (trimChars cs)) : (operandValue r cs).isSome := by
  unfold Expression.operandValue
  generalize trimChars cs = token at h ⊢
  dsimp only
  split
  · rfl
  · rfl
  · rfl
  · next htrue hfalse hnull =>
    cases h with
    | word h => simp_all
    | quoted hq cs =>
      rw [quoted?_enclosed hq]
      rfl
    | numeral h =>
      rw [h]
      cases quoted? token <;> rfl

theorem operandValue_path (h : ¬ IsLiteral (trimChars cs)) :
    operandValue r cs = pathValue r cs := by
  have hword {w : String} (hw : w = "true" ∨ w = "false" ∨ w = "null") :
      String.ofList (trimChars cs) ≠ w := by
    intro heq
    apply h
    rw [← String.toList_ofList (l := trimChars cs), heq]
    exact .word hw
  have hquoted : quoted? (trimChars cs) = none := by
    rw [Option.eq_none_iff_forall_ne_some]
    intro s hs
    obtain ⟨q, hq, heq⟩ := quoted?_eq_some.mp hs
    rw [heq] at h
    exact h (.quoted hq s)
  have hnumeral : numeral? (trimChars cs) = none := by
    rw [Option.eq_none_iff_forall_ne_some]
    exact fun v hv => h (.numeral hv)
  unfold operandValue
  dsimp only
  split
  next heq => exact absurd heq (hword (.inl rfl))
  next heq => exact absurd heq (hword (.inr (.inl rfl)))
  next heq => exact absurd heq (hword (.inr (.inr rfl)))
  next =>
    rw [hquoted, hnumeral, pathValue_trimChars]
    rfl

theorem operandValue_eq_none :
    operandValue r cs = none ↔ ¬ IsLiteral (trimChars cs) ∧ pathValue r cs = none := by
  by_cases h : IsLiteral (trimChars cs)
  · have hsome := h.operandValue (r := r)
    simp [h, Option.isSome_iff_ne_none.mp hsome]
  · simp [h, operandValue_path h]

theorem looselyEqual_none : looselyEqual none right ↔ right = none := by
  cases right <;> simp [looselyEqual]

theorem looselyEqual_cases :
    looselyEqual left right ↔ (left = none ∧ right = none) ∨
      ∃ v w, left = some v ∧ right = some w ∧ looselyEqual (some v) (some w) := by
  cases left <;> cases right <;> simp [looselyEqual]

/-- An equation holds of two values or of none. When its first operand has no value, it holds just
when the second one is a path, and no literal, that has no value either. -/
theorem equation_of_missing (r : Response) (hread : leaf? cs = some l)
    (hequal : l.relation = .equal) :
    (leafFailure r cs = none ↔ (pathValue r l.left = none ∧ operandValue r l.right = none) ∨
      ∃ v w, pathValue r l.left = some v ∧ operandValue r l.right = some w ∧
        looselyEqual (some v) (some w)) ∧
    (pathValue r l.left = none → (leafFailure r cs = none ↔
      ¬ IsLiteral (trimChars l.right) ∧ pathValue r l.right = none)) := by
  have hholds : leafFailure r cs = none ↔
      looselyEqual (pathValue r l.left) (operandValue r l.right) := by
    rw [leafFailure_eq_none r hread, hequal]
    rfl
  refine ⟨hholds.trans looselyEqual_cases, ?_⟩
  intro hmissing
  rw [hholds, hmissing, looselyEqual_none, operandValue_eq_none]

/-- A missing field equals a bare word, but no null. -/
theorem equation_of_missing_word :
    let r : Response := ⟨200, [], .object [("name", .null)]⟩
    let word : Leaf := ⟨"body.gone".toList, .equal, "name".toList⟩
    let null : Leaf := ⟨"body.gone".toList, .equal, "null".toList⟩
    leaf? "body.gone == name".toList = some word ∧ leaf? "body.gone == null".toList = some null ∧
      word.relation = .equal ∧ null.relation = .equal ∧
      pathValue r word.left = none ∧ pathValue r null.left = none ∧
      leafFailure r "body.gone == name".toList = none ∧
      leafFailure r "body.gone == null".toList ≠ none := by
  intro r word null
  have hword : leaf? "body.gone == name".toList = some word := by decide +kernel
  have hnull : leaf? "body.gone == null".toList = some null := by decide +kernel
  have hmissing : pathValue r "body.gone".toList = none := rfl
  have hpath : pathValue r "name".toList = none := rfl
  have hliteral : IsLiteral "null".toList := .word (.inr (.inr rfl))
  have hboth : operandValue r "name".toList = none := rfl
  obtain ⟨hcases, -⟩ := equation_of_missing r hword rfl
  obtain ⟨-, hvalue⟩ := equation_of_missing r hnull rfl
  refine ⟨hword, hnull, rfl, rfl, hmissing, hmissing, hcases.mpr (.inl ⟨hmissing, hboth⟩), ?_⟩
  intro hholds
  exact ((hvalue hmissing).mp hholds).1 hliteral

/-- Two fields that are both missing. -/
theorem missing_fields_equal :
    ¬ ∀ (r : Response) (cs : List Char) (l : Leaf), leaf? cs = some l → l.relation = .equal →
      pathValue r l.left = none → leafFailure r cs ≠ none := by
  intro h
  let r : Response := ⟨200, [], .object []⟩
  have hread : leaf? "body.missing == body.other".toList =
      some ⟨"body.missing".toList, .equal, "body.other".toList⟩ := by decide +kernel
  have hholds : leafFailure r "body.missing == body.other".toList = none := by decide +kernel
  exact h r _ _ hread rfl rfl hholds

end Assay.Expression

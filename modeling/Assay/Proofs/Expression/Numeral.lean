import Assay.Expression.Operand
import Assay.Proofs.Document.Sound
import Assay.Proofs.Unit.Written

namespace Assay

open Double (ofInt ne_of_isDigit)

variable {k : Nat} {y : Int}

theorem Double.ofInt_natCast (k : Nat) : ofInt k = ofNat k := by
  unfold ofInt ofNat
  rw [Int.natAbs_natCast, decide_eq_false (by omega)]

theorem toDigits_eq_cons (k : Nat) : ∃ c cs, Nat.toDigits 10 k = c :: cs ∧ c.isDigit := by
  have hdigits := allDigits_toDigits k
  have hne : Nat.toDigits 10 k ≠ [] := List.ne_nil_of_length_pos Nat.length_toDigits_pos
  obtain ⟨c, cs, heq⟩ := List.exists_cons_of_ne_nil hne
  rw [heq] at hdigits
  exact ⟨c, cs, heq, hdigits c List.mem_cons_self⟩

theorem readNat?_toDigits (k : Nat) : readNat? (Nat.toDigits 10 k) = some k := by
  obtain ⟨c, cs, heq, -⟩ := toDigits_eq_cons k
  have hall : (Nat.toDigits 10 k).all Char.isDigit := List.all_eq_true.mpr (allDigits_toDigits k)
  have hvalue := digitsFrom_toDigits k
  unfold readNat?
  rw [hall, hvalue, heq]
  rfl

theorem readUnsigned?_toDigits (limit k : Nat) :
    readUnsigned? limit (Nat.toDigits 10 k) = if k ≤ limit then some k else none := by
  have hnat := readNat?_toDigits k
  obtain ⟨c, cs, heq, hc⟩ := toDigits_eq_cons k
  unfold readUnsigned?
  rw [heq] at hnat ⊢
  split
  next hplus => exact absurd (List.cons.inj hplus).1 (ne_of_isDigit hc rfl)
  next => simp [hnat, Option.filter]

theorem readInt64?_toDigits (k : Nat) :
    readInt64? (Nat.toDigits 10 k) = if k < 2 ^ 63 then some (k : Int) else none := by
  have hunsigned : (readUnsigned? (Nat.pow 2 63 - 1) (Nat.toDigits 10 k)).map Int.ofNat =
      if k < 2 ^ 63 then some (k : Int) else none := by
    rw [readUnsigned?_toDigits, Nat.pow_eq]
    by_cases hk : k < 2 ^ 63
    · rw [if_pos hk, if_pos (by omega)]
      rfl
    · rw [if_neg hk, if_neg (by omega)]
      rfl
  obtain ⟨c, cs, heq, hc⟩ := toDigits_eq_cons k
  unfold readInt64?
  rw [heq] at hunsigned ⊢
  split
  next hminus => exact absurd (List.cons.inj hminus).1 (ne_of_isDigit hc rfl)
  next => exact hunsigned

namespace Expression

/-- The digits of a number are read as that number, or as the double nearest to it when it has more
than 63 bits. -/
theorem numeral?_toDigits (h : k < 2 ^ 64) :
    ∃ n, numeral? (Nat.toDigits 10 k) = some (.number n) ∧ n.toDouble = ofInt k := by
  unfold numeral?
  rw [readInt64?_toDigits]
  by_cases hlow : k < 2 ^ 63
  · rw [if_pos hlow]
    exact ⟨.int k, rfl, rfl⟩
  · have hfinite : (Double.ofNat k).isFinite := by
      rw [(Double.ofNat_finite h).1]
      rfl
    rw [if_neg hlow, Double.read?_toDigits h]
    refine ⟨.float (.ofNat k), ?_, (Double.ofInt_natCast k).symm⟩
    simp [Option.filter, hfinite]

theorem numeral?_neg (h : k ≤ 2 ^ 63) :
    numeral? ('-' :: Nat.toDigits 10 k) = some (.int (-(k : Int))) := by
  have hread : readInt64? ('-' :: Nat.toDigits 10 k) = some (-(k : Int)) := by
    change ((readNat? (Nat.toDigits 10 k)).bind fun n =>
      if n ≤ Nat.pow 2 63 then some (-(n : Int)) else none) = _
    rw [readNat?_toDigits, Option.bind_some, Nat.pow_eq, if_pos h]
  unfold numeral?
  rw [hread]

theorem operandValue_numeral {r : Response} {c : Char} {cs : List Char} {v : Value}
    (hc : c = '-' ∨ c.isDigit) (hblank : ∀ d ∈ c :: cs, Text.isBlank d = false)
    (h : numeral? (c :: cs) = some v) : operandValue r (c :: cs) = some v := by
  have hword {w : String} {d : Char} {ds : List Char} (hw : w.toList = d :: ds) (hminus : '-' ≠ d)
      (hdigit : d.isDigit = false) : String.ofList (c :: cs) ≠ w := by
    rintro rfl
    rw [String.toList_ofList] at hw
    obtain ⟨rfl, -⟩ := List.cons.inj hw
    rcases hc with rfl | hc
    · exact hminus rfl
    · exact ne_of_isDigit hc hdigit rfl
  have hquoted : quoted? (c :: cs) = none := by
    refine if_neg ?_
    rintro ⟨rfl | rfl, -⟩ <;> rcases hc with hc | hc <;> cases hc
  unfold operandValue
  rw [Text.trimChars_eq_self hblank]
  dsimp only
  split
  next heq => exact absurd heq (hword rfl (by decide) rfl)
  next heq => exact absurd heq (hword rfl (by decide) rfl)
  next heq => exact absurd heq (hword rfl (by decide) rfl)
  next =>
    rw [hquoted]
    dsimp only
    rw [h]
    rfl

/-- An integer that is written in an expression stands for the double nearest to it. -/
theorem operandValue_compact (r : Response) (hy : (Number.int y).Sound) :
    ∃ n, operandValue r (Value.int y).compact.toList = some (.number n) ∧
      n.toDouble = ofInt y := by
  obtain ⟨hlow, hhigh⟩ := hy
  cases y with
  | ofNat k =>
    have htext : (Value.int k).compact.toList = Nat.toDigits 10 k := by
      change (toString k).toList = _
      rw [Nat.toString_eq_ofList_toDigits, String.toList_ofList]
    rw [Int.ofNat_eq_natCast] at hhigh ⊢
    obtain ⟨n, hn, hdouble⟩ := numeral?_toDigits (show k < 2 ^ 64 by omega)
    have hblank : ∀ d ∈ Nat.toDigits 10 k, Text.isBlank d = false :=
      fun d hd => Text.isBlank_digit (allDigits_toDigits k d hd)
    obtain ⟨c, cs, heq, hc⟩ := toDigits_eq_cons k
    rw [heq] at hn hblank htext
    refine ⟨n, ?_, hdouble⟩
    rw [htext]
    exact operandValue_numeral (.inr hc) hblank hn
  | negSucc k =>
    have htext : (Value.int (.negSucc k)).compact.toList = '-' :: Nat.toDigits 10 (k + 1) := by
      change ("-" ++ toString (k + 1)).toList = _
      simp
    have hblank : ∀ d ∈ '-' :: Nat.toDigits 10 (k + 1), Text.isBlank d = false := by
      rintro d (_ | ⟨_, hd⟩)
      · decide
      · exact Text.isBlank_digit (allDigits_toDigits _ d hd)
    refine ⟨.int (.negSucc k), ?_, rfl⟩
    rw [htext]
    exact operandValue_numeral (.inl rfl) hblank (numeral?_neg (by omega))

end Expression

end Assay

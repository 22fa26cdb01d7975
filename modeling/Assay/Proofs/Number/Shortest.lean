import Assay.Number.Shortest
import Assay.Proofs.Number.Rounding
import Mathlib.Data.Nat.Digits.Defs
import Mathlib.Data.Rat.Cast.Order
import Mathlib.Tactic.FieldSimp
import Mathlib.Tactic.NormNum
import Mathlib.Tactic.Positivity

namespace Assay

open Double (one bound excess nearest)

attribute [local irreducible] one bound

def Decimal.value (d : Decimal) : ℚ := d.digits * 10 ^ d.exponent

theorem zpow_eq_div (e : ℤ) : (10 : ℚ) ^ e = 10 ^ e.toNat / 10 ^ (-e).toNat := by
  rcases Int.le_total 0 e with h | h
  · have hneg : (-e).toNat = 0 := by omega
    rw [hneg, pow_zero, div_one, ← zpow_natCast, Int.toNat_of_nonneg h]
  · have hpos : e.toNat = 0 := by omega
    have heq : e = -((-e).toNat : ℤ) := by omega
    rw [hpos, pow_zero, one_div]
    conv_lhs => rw [heq]
    rw [zpow_neg, zpow_natCast]

namespace RoundingRange

variable {r : RoundingRange} {q num den : Nat} {e : ℤ} {d : Decimal}

/-- The magnitudes in the range, in quarters of a quantum. -/
def Contains (r : RoundingRange) (x : ℚ) : Prop :=
  if r.closed then r.low ≤ x ∧ x ≤ r.high else r.low < x ∧ x < r.high

theorem contains_of_lt {x : ℚ} (hlow : r.low < x) (hhigh : x < r.high) : r.Contains x := by
  unfold Contains
  split
  · exact ⟨hlow.le, hhigh.le⟩
  · exact ⟨hlow, hhigh⟩

theorem Contains.low_le {x : ℚ} (h : r.Contains x) : r.low ≤ x := by
  unfold Contains at h
  split at h
  · exact h.1
  · exact h.1.le

theorem Contains.le_high {x : ℚ} (h : r.Contains x) : x ≤ r.high := by
  unfold Contains at h
  split at h
  · exact h.2
  · exact h.2.le

theorem admits_iff {digits scale unit : Nat} (hunit : 0 < unit) :
    r.admits digits scale unit ↔ r.Contains (digits * scale / unit) := by
  have hunit' : (0 : ℚ) < unit := by exact_mod_cast hunit
  unfold admits Contains
  dsimp only
  split
  · rw [Bool.and_eq_true, decide_eq_true_eq, decide_eq_true_eq, le_div_iff₀ hunit',
      div_le_iff₀ hunit']
    norm_cast
  · rw [Bool.and_eq_true, decide_eq_true_eq, decide_eq_true_eq, lt_div_iff₀ hunit',
      div_lt_iff₀ hunit']
    norm_cast

theorem le_of_admits {digits scale unit : Nat} (h : r.admits digits scale unit) :
    r.low * unit ≤ digits * scale ∧ digits * scale ≤ r.high * unit := by
  unfold admits at h
  dsimp only at h
  split at h
  · simpa using h
  · have hlt : r.low * unit < digits * scale ∧ digits * scale < r.high * unit := by simpa using h
    exact ⟨hlt.1.le, hlt.2.le⟩

theorem lt_of_admits {digits scale unit : Nat} (h : r.admits digits scale unit)
    (hopen : r.closed = false) :
    r.low * unit < digits * scale ∧ digits * scale < r.high * unit := by
  unfold admits at h
  simpa [hopen] using h

theorem grid_step (e : ℤ) :
    ((4 * one * Nat.pow 10 e.toNat : Nat) : ℚ) / (Nat.pow 10 (-e).toNat : Nat) =
      4 * one * 10 ^ e := by
  rw [zpow_eq_div, Nat.pow_eq, Nat.pow_eq]
  push_cast
  ring

theorem admits_grid {digits : Nat} :
    r.admits digits (4 * one * Nat.pow 10 e.toNat) (Nat.pow 10 (-e).toNat) ↔
      r.Contains (4 * one * (⟨digits, e⟩ : Decimal).value) := by
  have hunit : 0 < Nat.pow 10 (-e).toNat := Nat.pow_pos (by decide)
  have hvalue : 4 * one * (⟨digits, e⟩ : Decimal).value = digits * (4 * one * 10 ^ e) := by
    unfold Decimal.value
    ring
  rw [admits_iff hunit, mul_div_assoc, grid_step, hvalue]

theorem onGrid?_contains (h : r.onGrid? e = some d) : r.Contains (4 * one * d.value) := by
  unfold onGrid? at h
  dsimp only at h
  split at h
  next hdown =>
    cases h
    exact admits_grid.mp (Bool.and_eq_true_iff.mp hdown).1
  next =>
    split at h
    next hup =>
      cases h
      exact admits_grid.mp hup
    next => cases h

theorem search_contains {tries : Nat} (h : r.search e tries = some d) :
    r.Contains (4 * one * d.value) := by
  induction tries generalizing e with
  | zero => cases h
  | succ tries ih =>
    rw [search] at h
    cases hgrid : r.onGrid? e with
    | some d' =>
      rw [hgrid] at h
      cases h
      exact onGrid?_contains hgrid
    | none =>
      rw [hgrid] at h
      exact ih h

theorem exists_search {tries i : Nat} (hi : i < tries) (h : (r.onGrid? (e - i)).isSome) :
    ∃ d, r.search e tries = some d := by
  induction tries generalizing e i with
  | zero => omega
  | succ tries ih =>
    rw [search]
    cases hgrid : r.onGrid? e with
    | some d => exact ⟨d, rfl⟩
    | none =>
      cases i with
      | zero =>
        rw [Nat.cast_zero, Int.sub_zero, hgrid] at h
        cases h
      | succ i =>
        have heq : e - (i + 1 : Nat) = e - 1 - i := by omega
        rw [heq] at h
        exact ih (by omega) h

theorem grid_floor {v n : Nat}
    (hn : v * Nat.pow 10 (-e).toNat / (4 * one * Nat.pow 10 e.toNat) = n) :
    n * (4 * one * 10 ^ e) ≤ (v : ℚ) ∧ (v : ℚ) < (n + 1) * (4 * one * 10 ^ e) := by
  have hunit : (0 : ℚ) < Nat.pow 10 (-e).toNat := by
    exact_mod_cast (Nat.pow_pos (by decide) : 0 < 10 ^ (-e).toNat)
  have hscale : 0 < 4 * one * Nat.pow 10 e.toNat :=
    Nat.mul_pos (Nat.mul_pos (by decide) Double.one_pos) (Nat.pow_pos (by decide))
  have hdown := (Nat.le_div_iff_mul_le hscale).mp hn.ge
  have hup := (Nat.div_lt_iff_lt_mul hscale).mp (Nat.lt_succ_of_le hn.le)
  rw [← grid_step]
  constructor
  · rw [mul_div_assoc', div_le_iff₀ hunit]
    exact_mod_cast hdown
  · rw [mul_div_assoc', lt_div_iff₀ hunit]
    exact_mod_cast hup

/-- A grid finer than the part of the range above the value has a point there. -/
theorem onGrid?_isSome (hlow : r.low ≤ r.value)
    (hgrid : (r.value : ℚ) + 4 * one * 10 ^ e < r.high) : (r.onGrid? e).isSome := by
  obtain ⟨hdown, hup⟩ := grid_floor (e := e) (v := r.value) rfl
  have hadmits : r.admits (r.value * Nat.pow 10 (-e).toNat / (4 * one * Nat.pow 10 e.toNat) + 1)
      (4 * one * Nat.pow 10 e.toNat) (Nat.pow 10 (-e).toNat) := by
    rw [admits_grid]
    generalize r.value * Nat.pow 10 (-e).toNat / (4 * one * Nat.pow 10 e.toNat) = n at hdown hup
    have hvalue : 4 * one * (⟨n + 1, e⟩ : Decimal).value = (n + 1) * (4 * one * 10 ^ e) := by
      unfold Decimal.value
      push_cast
      ring
    have hlow' : (r.low : ℚ) ≤ r.value := by exact_mod_cast hlow
    rw [hvalue]
    apply contains_of_lt
    · linarith
    · linarith
  unfold onGrid?
  dsimp only
  split
  · rfl
  · rfl

section OfQuanta

variable {m : Nat}

theorem ofQuanta_high (q : Nat) : (ofQuanta q).high = 4 * q + 2 * 2 ^ excess q := rfl

theorem significand_eq (hm : q = m * 2 ^ excess q) : q / Nat.pow 2 (excess q) = m := by
  have hdiv : q / 2 ^ excess q = m * 2 ^ excess q / 2 ^ excess q := congrArg (· / _) hm
  exact hdiv.trans (Nat.mul_div_cancel m (Nat.pow_pos (by decide)))

theorem ofQuanta_low (hm : q = m * 2 ^ excess q) :
    (ofQuanta q).low =
      4 * q - if m = 2 ^ 52 ∧ 0 < excess q then 2 ^ excess q else 2 * 2 ^ excess q := by
  rw [← significand_eq hm]
  rfl

theorem ofQuanta_closed (hm : q = m * 2 ^ excess q) : (ofQuanta q).closed = (m % 2 == 0) := by
  rw [← significand_eq hm]
  rfl

theorem le_ofQuanta_low (hm : q = m * 2 ^ excess q) :
    4 * q ≤ (ofQuanta q).low + 2 * 2 ^ excess q := by
  rw [ofQuanta_low hm]
  split <;> omega

theorem le_ofQuanta_low_half (hm : q = m * 2 ^ excess q) (h52 : m = 2 ^ 52) (he : 0 < excess q) :
    4 * q ≤ (ofQuanta q).low + 2 ^ excess q := by
  rw [ofQuanta_low hm, if_pos ⟨h52, he⟩]
  omega

theorem ofQuanta_bounds (hq : nearest q 1 = q) (h0 : 0 < q) :
    0 < (ofQuanta q).low ∧ (ofQuanta q).low ≤ 4 * q ∧ (ofQuanta q).high ≤ 6 * q := by
  obtain ⟨m, hm, -⟩ := Double.exists_significand hq
  have hle := Double.pow_excess_le hq h0
  have hlow := le_ofQuanta_low hm
  have hlow' : (ofQuanta q).low ≤ 4 * q := by
    rw [ofQuanta_low hm]
    exact Nat.sub_le _ _
  rw [ofQuanta_high]
  omega

end OfQuanta

/-- Whatever lies in the rounding range of a double is rounded to it. -/
theorem nearest_of_contains (hq : nearest q 1 = q) (hden : 0 < den)
    (h : (ofQuanta q).Contains (4 * num / den)) : nearest num den = q := by
  obtain ⟨m, hm, hm53, he⟩ := Double.exists_significand hq
  have hadmits : (ofQuanta q).admits 4 num den := (admits_iff hden).mpr h
  obtain ⟨hlow, hhigh⟩ := le_of_admits hadmits
  have hq' : m * (den * 2 ^ excess q) = q * den := by
    conv_rhs => rw [hm]
    ring
  have hhighEq : (ofQuanta q).high * den = 4 * (q * den) + 2 * (den * 2 ^ excess q) := by
    rw [ofQuanta_high]
    ring
  have hlowLe : 4 * (q * den) ≤ (ofQuanta q).low * den + 2 * (den * 2 ^ excess q) := by
    have hmul := Nat.mul_le_mul_right den (le_ofQuanta_low hm)
    linarith
  have hnearest : nearest num den = m * 2 ^ excess q := by
    apply Double.nearest_eq_of_close hden hm53 he
    · omega
    · omega
    · intro htie
      by_contra hodd
      have hopen : (ofQuanta q).closed = false := by simp [ofQuanta_closed hm, hodd]
      have hstrict := lt_of_admits hadmits hopen
      omega
    · intro h52 hpos
      have hmul := Nat.mul_le_mul_right den (le_ofQuanta_low_half hm h52 hpos)
      have hhalf : 4 * (q * den) ≤ (ofQuanta q).low * den + den * 2 ^ excess q := by linarith
      omega
  rw [hnearest, ← hm]

end RoundingRange

theorem Decimal.strip_value (d : Decimal) (steps : Nat) : (d.strip steps).value = d.value := by
  induction steps generalizing d with
  | zero => rfl
  | succ steps ih =>
    rw [Decimal.strip]
    split
    next h =>
      have hdigits : d.digits = d.digits / 10 * 10 := by omega
      rw [ih]
      unfold Decimal.value
      dsimp only
      conv_rhs => rw [hdigits]
      rw [zpow_add₀ (by norm_num : (10 : ℚ) ≠ 0), zpow_one]
      push_cast
      ring
    next => rfl

theorem pow_digitCount_le {n : Nat} (hn : 0 < n) : 10 ^ (digitCount n - 1) ≤ n := by
  have hlength : digitCount n = (Nat.toDigits 10 n).length := by
    rw [digitCount, if_neg (by omega)]
  rw [hlength]
  by_contra hlt
  have hpos := Nat.length_toDigits_pos (b := 10) (n := n)
  rcases Nat.eq_zero_or_pos ((Nat.toDigits 10 n).length - 1) with h1 | h1
  · rw [h1] at hlt
    omega
  · have := Nat.toDigits_length 10 n _ h1 (Nat.lt_of_not_le hlt)
    omega

theorem one_le_pow_ten {k : Nat} (hk : 330 ≤ k) : one ≤ 10 ^ k := by
  have hpow (n : Nat) : 2 ^ (33 * n) ≤ 10 ^ (10 * n) := by
    rw [Nat.pow_mul, Nat.pow_mul]
    exact Nat.pow_le_pow_left (by decide) n
  have hexponent : 1074 ≤ 33 * (k / 10) := by omega
  rw [Double.one_eq]
  generalize 1074 = j at hexponent
  have hlow : 2 ^ j ≤ 2 ^ (33 * (k / 10)) := Nat.pow_le_pow_right (by decide) hexponent
  have hhigh : 10 ^ (10 * (k / 10)) ≤ 10 ^ k := Nat.pow_le_pow_right (by decide) (by omega)
  exact hlow.trans ((hpow _).trans hhigh)

theorem one_mul_zpow_le {q : Nat} (h0 : 0 < q) : (one : ℚ) * 10 ^ (decimalPlaces q - 1) ≤ q := by
  unfold decimalPlaces
  generalize hk : 330 = k
  rw [Nat.pow_eq]
  have hscaled : 0 < q * 10 ^ k / one := by
    apply Nat.div_pos _ Double.one_pos
    exact Nat.le_trans (one_le_pow_ten (by omega)) (Nat.le_mul_of_pos_left _ h0)
  have hdigits := pow_digitCount_le hscaled
  have hpos : 1 ≤ digitCount (q * 10 ^ k / one) := by
    rw [digitCount, if_neg (by omega)]
    exact Nat.length_toDigits_pos
  have hle := Nat.le_trans (Nat.mul_le_mul_right one hdigits) (Nat.div_mul_le_self _ one)
  generalize digitCount (q * 10 ^ k / one) = n at hpos hle
  have hexponent : (n : ℤ) - 330 - 1 = ((n - 1 : Nat) : ℤ) - (k : Nat) := by omega
  rw [hexponent, zpow_sub₀ (by norm_num : (10 : ℚ) ≠ 0), zpow_natCast, zpow_natCast,
    mul_div_assoc', div_le_iff₀ (by positivity), mul_comm]
  exact_mod_cast hle

open RoundingRange in
theorem shortest_contains {q : Nat} (hq : nearest q 1 = q) (h0 : 0 < q) :
    (ofQuanta q).Contains (4 * one * (shortest q).value) := by
  have hlow := (ofQuanta_bounds hq h0).2.1
  have hvalue : (ofQuanta q).value = 4 * q := rfl
  have hfine : ((ofQuanta q).onGrid? (decimalPlaces q - 1 - (17 : Nat))).isSome := by
    apply onGrid?_isSome (hlow.trans_eq hvalue.symm)
    have hplaces := one_mul_zpow_le h0
    have hlt : (q : ℚ) < 2 ^ 53 * 2 ^ excess q := by
      rw [← pow_add]
      exact_mod_cast Double.lt_of_excess q
    rw [hvalue, ofQuanta_high, zpow_sub₀ (by norm_num : (10 : ℚ) ≠ 0), zpow_natCast]
    push_cast
    have hstep : 4 * (one : ℚ) * (10 ^ (decimalPlaces q - 1) / 10 ^ 17) < 2 * 2 ^ excess q := by
      rw [mul_div_assoc', div_lt_iff₀ (by positivity)]
      norm_num at hlt ⊢
      linarith
    linarith
  obtain ⟨d, hd⟩ := exists_search (show 17 < 18 by decide) hfine
  unfold shortest
  rw [if_neg (by omega)]
  dsimp only
  rw [hd]
  dsimp only
  rw [Decimal.strip_value]
  exact search_contains hd

end Assay

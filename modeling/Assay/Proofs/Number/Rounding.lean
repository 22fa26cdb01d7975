import Assay.Number.Double
import Mathlib.Algebra.Order.Ring.Nat
import Mathlib.Tactic.Linarith
import Mathlib.Tactic.Ring

namespace Assay.Double

variable {num den unit m n e : Nat}

theorem one_eq : one = 2 ^ 1074 := by
  unfold one
  generalize 1074 = k
  exact Nat.pow_eq

theorem bound_eq : bound = 2 ^ 2098 := by
  unfold bound
  generalize 2098 = k
  exact Nat.pow_eq

theorem one_pos : 0 < one := by
  unfold one
  generalize 1074 = k
  exact Nat.pow_pos (by decide)

theorem bound_pos : 0 < bound := by
  unfold bound
  generalize 2098 = k
  exact Nat.pow_pos (by decide)

-- Nothing below computes with these powers.
attribute [local irreducible] one bound

/-- How many binary places of a number go beyond the 53 of a significand. -/
def excess (n : Nat) : Nat := n.log2 + 1 - 53

/-- The multiple of `unit` nearest to `num`, counted in units; a tie goes to the even one. -/
def units (num unit : Nat) : Nat :=
  let down := num / unit
  let rest := num % unit
  if 2 * rest > unit || (2 * rest == unit && down % 2 == 1) then down + 1 else down

theorem nearest_eq_units (num den : Nat) :
    nearest num den =
      units num (den * 2 ^ excess (num / den)) * 2 ^ excess (num / den) := rfl

theorem lt_of_excess (n : Nat) : n < 2 ^ (53 + excess n) := by
  have hpow : 2 ^ (n.log2 + 1) ≤ 2 ^ (53 + excess n) := by
    apply Nat.pow_le_pow_right (by decide)
    unfold excess
    omega
  exact Nat.lt_of_lt_of_le Nat.lt_log2_self hpow

theorem le_of_excess (h : 0 < excess n) : 2 ^ (52 + excess n) ≤ n := by
  have hn : n ≠ 0 := by
    rintro rfl
    simp [excess] at h
  have hlog : 52 + excess n = n.log2 := by
    unfold excess at h ⊢
    omega
  rw [hlog]
  exact Nat.log2_self_le hn

theorem excess_eq (hlt : n < 2 ^ (53 + e)) (hle : e = 0 ∨ 2 ^ (52 + e) ≤ n) : excess n = e := by
  by_cases hn : n = 0
  · have he : e = 0 := by
      rcases hle with he | hle
      · exact he
      · have hpos : 0 < 2 ^ (52 + e) := Nat.pow_pos (by decide)
        omega
    rw [hn, he]
    decide
  · have hup : n.log2 < 53 + e := (Nat.log2_lt hn).mpr hlt
    unfold excess
    rcases hle with he | hle
    · omega
    · have hdown : 52 + e ≤ n.log2 := (Nat.le_log2 hn).mpr hle
      omega

/-- The number of units is `m` if `num` is within half a unit of `m` units, with `m` even when it is
just half a unit away. -/
theorem units_eq (hunit : 0 < unit) (hlow : 2 * (m * unit) ≤ 2 * num + unit)
    (hhigh : 2 * num ≤ 2 * (m * unit) + unit)
    (heven : 2 * (m * unit) = 2 * num + unit ∨ 2 * num = 2 * (m * unit) + unit → m % 2 = 0) :
    units num unit = m := by
  have hsum : num / unit * unit + num % unit = num := Nat.div_add_mod' num unit
  have hrest : num % unit < unit := Nat.mod_lt num hunit
  have hle : m ≤ num / unit + 1 := by
    by_contra hgt
    have hmul : (num / unit + 2) * unit ≤ m * unit := Nat.mul_le_mul_right unit (by omega)
    rw [Nat.add_mul] at hmul
    omega
  have hge : num / unit ≤ m := by
    by_contra hlt
    have hmul : (m + 1) * unit ≤ num / unit * unit := Nat.mul_le_mul_right unit (by omega)
    rw [Nat.add_mul, Nat.one_mul] at hmul
    omega
  have hcases : m = num / unit ∨ m = num / unit + 1 := by omega
  unfold units
  dsimp only
  rcases hcases with hm | hm
  · rw [← hm] at hsum ⊢
    have hnotUp : ¬ 2 * (num % unit) > unit := by omega
    have hnotTie : ¬ (2 * (num % unit) = unit ∧ m % 2 = 1) := by
      rintro ⟨htie, hodd⟩
      have := heven (.inr (by omega))
      omega
    simp [hnotUp, hnotTie]
  · have hmul : m * unit = num / unit * unit + unit := by rw [hm, Nat.add_mul, Nat.one_mul]
    have hup : 2 * (num % unit) > unit ∨ 2 * (num % unit) = unit ∧ num / unit % 2 = 1 := by
      by_cases hgt : 2 * (num % unit) > unit
      · exact .inl hgt
      · have htie : 2 * (num % unit) = unit := by omega
        have := heven (.inl (by omega))
        exact .inr ⟨htie, by omega⟩
    simp [hup, hm]

theorem units_le (h : num / den < 2 ^ (53 + e)) : units num (den * 2 ^ e) ≤ 2 ^ 53 := by
  have hdown : num / (den * 2 ^ e) < 2 ^ 53 := by
    rw [← Nat.div_div_eq_div_mul]
    apply Nat.div_lt_of_lt_mul
    rwa [← Nat.pow_add, Nat.add_comm]
  unfold units
  dsimp only
  split <;> omega

theorem div_lt_pow_add {a : Nat} (hden : 0 < den) :
    num / den < 2 ^ (a + e) ↔ num < 2 ^ a * (den * 2 ^ e) := by
  rw [Nat.div_lt_iff_lt_mul hden, Nat.pow_add, Nat.mul_assoc, Nat.mul_comm _ den]

/-- A number at most half a place below a power of two is rounded up to it. Its places are half as
wide as those above the power. -/
theorem nearest_eq_of_below (hden : 0 < den) (hhigh : num < 2 ^ 53 * (den * 2 ^ e))
    (hlow : 2 * (2 ^ 53 * (den * 2 ^ e)) ≤ 2 * num + den * 2 ^ e) :
    nearest num den = 2 ^ 53 * 2 ^ e := by
  have hunit : 0 < den * 2 ^ e := Nat.mul_pos hden (Nat.pow_pos (by decide))
  have hunits : units num (den * 2 ^ e) = 2 ^ 53 := by
    apply units_eq hunit hlow
    · omega
    · intro _
      decide
  have hexcess : excess (num / den) = e := by
    apply excess_eq
    · exact (div_lt_pow_add hden).mpr hhigh
    · right
      rw [← Nat.not_lt, div_lt_pow_add hden]
      omega
  rw [nearest_eq_units, hexcess, hunits]

/-- A number within half a place of a double is rounded to it. The place below a power of two is
only half as wide. -/
theorem nearest_eq_of_close (hden : 0 < den) (hm : m < 2 ^ 53) (he : e = 0 ∨ 2 ^ 52 ≤ m)
    (hlow : 2 * (m * (den * 2 ^ e)) ≤ 2 * num + den * 2 ^ e)
    (hhigh : 2 * num ≤ 2 * (m * (den * 2 ^ e)) + den * 2 ^ e)
    (heven : 2 * (m * (den * 2 ^ e)) = 2 * num + den * 2 ^ e ∨
      2 * num = 2 * (m * (den * 2 ^ e)) + den * 2 ^ e → m % 2 = 0)
    (hhalf : m = 2 ^ 52 → 0 < e → 4 * (m * (den * 2 ^ e)) ≤ 4 * num + den * 2 ^ e) :
    nearest num den = m * 2 ^ e := by
  have hunit : 0 < den * 2 ^ e := Nat.mul_pos hden (Nat.pow_pos (by decide))
  have hlt : num / den < 2 ^ (53 + e) := by
    rw [div_lt_pow_add hden]
    have hmul := Nat.mul_le_mul_right (den * 2 ^ e) (show m + 1 ≤ 2 ^ 53 by omega)
    rw [Nat.add_mul, Nat.one_mul] at hmul
    omega
  by_cases hbinade : e = 0 ∨ 2 ^ (52 + e) ≤ num / den
  · rw [nearest_eq_units, excess_eq hlt hbinade, units_eq hunit hlow hhigh heven]
  · -- The number lies below the power of two that it is rounded to.
    obtain ⟨he0, hbelow⟩ := not_or.mp hbinade
    rw [Nat.not_le, div_lt_pow_add hden] at hbelow
    have hm52 : m = 2 ^ 52 := by
      by_contra hne
      have hge : 2 ^ 52 + 1 ≤ m := by omega
      have hmul := Nat.mul_le_mul_right (den * 2 ^ e) hge
      omega
    subst hm52
    have hhalf := hhalf rfl (Nat.pos_of_ne_zero he0)
    obtain ⟨k, rfl⟩ := Nat.exists_eq_add_one_of_ne_zero he0
    have hdouble : den * 2 ^ (k + 1) = 2 * (den * 2 ^ k) := by ring
    rw [hdouble] at hbelow hhalf
    have hnearest : nearest num den = 2 ^ 53 * 2 ^ k :=
      nearest_eq_of_below hden (by omega) (by omega)
    rw [hnearest]
    ring

theorem nearest_of_dvd (hden : 0 < den) (h : 2 ^ excess n ∣ n) : nearest (n * den) den = n := by
  obtain ⟨m, hm⟩ := h
  have hpos : 0 < 2 ^ excess n := Nat.pow_pos (by decide)
  have hunit : 0 < den * 2 ^ excess n := Nat.mul_pos hden hpos
  have hnum : n * den = m * (den * 2 ^ excess n) := by
    conv_lhs => rw [hm]
    ring
  rw [nearest_eq_units, Nat.mul_div_cancel n hden, units_eq (m := m) hunit]
  · rw [Nat.mul_comm]
    exact hm.symm
  · omega
  · omega
  · omega

theorem nearest_exact (hden : 0 < den) (hm : m ≤ 2 ^ 53) (e : Nat) :
    nearest (m * 2 ^ e * den) den = m * 2 ^ e := by
  apply nearest_of_dvd hden
  rcases Nat.lt_or_eq_of_le hm with hlt | rfl
  · have hbound : m * 2 ^ e < 2 ^ (53 + e) := by
      rw [Nat.pow_add]
      exact Nat.mul_lt_mul_of_pos_right hlt (Nat.pow_pos (by decide))
    have hle : excess (m * 2 ^ e) ≤ e := by
      by_contra hgt
      have hge := le_of_excess (n := m * 2 ^ e) (by omega)
      have hpow : 2 ^ (53 + e) ≤ 2 ^ (52 + excess (m * 2 ^ e)) :=
        Nat.pow_le_pow_right (by decide) (by omega)
      omega
    exact Dvd.dvd.mul_left (Nat.pow_dvd_pow 2 hle) m
  · have hpow : 2 ^ 53 * 2 ^ e = 2 ^ (52 + (e + 1)) := by
      rw [← Nat.pow_add]
      congr 1
      omega
    have hexcess : excess (2 ^ (52 + (e + 1))) = e + 1 := by
      apply excess_eq
      · exact Nat.pow_lt_pow_right (by decide) (by omega)
      · exact .inr (Nat.le_refl _)
    rw [hpow, hexcess]
    exact Nat.pow_dvd_pow 2 (by omega)

theorem nearest_idem (num den : Nat) : nearest (nearest num den) 1 = nearest num den := by
  have h := nearest_exact Nat.one_pos (units_le (lt_of_excess (num / den)))
    (excess (num / den))
  rwa [Nat.mul_one] at h

theorem infinite_representable (negative : Bool) : (infinite negative).Representable := True.intro

theorem nan_representable : nan.Representable := True.intro

theorem finite_zero_representable (negative : Bool) : (finite negative 0).Representable :=
  ⟨rfl, bound_pos⟩

theorem ofQuanta_representable (negative : Bool) (num den : Nat) :
    (ofQuanta negative (nearest num den)).Representable := by
  by_cases h : nearest num den < bound
  · rw [ofQuanta, if_pos h]
    exact ⟨nearest_idem num den, h⟩
  · rw [ofQuanta, if_neg h]
    exact infinite_representable negative

theorem ofRatio_representable (negative : Bool) (num den : Nat) :
    (ofRatio negative num den).Representable := ofQuanta_representable negative (num * one) den

theorem ofNat_representable (n : Nat) : (ofNat n).Representable := ofRatio_representable false n 1

theorem ofInt_representable (n : Int) : (ofInt n).Representable := ofRatio_representable _ _ 1

theorem neg_representable {x : Double} (h : x.Representable) : x.neg.Representable := by
  cases x with
  | finite negative quanta => exact h
  | infinite negative => exact infinite_representable _
  | nan => exact nan_representable

theorem ite_representable {c : Prop} [Decidable c] {x y : Double} (hx : x.Representable)
    (hy : y.Representable) : (if c then x else y).Representable := by
  by_cases h : c
  · rwa [if_pos h]
  · rwa [if_neg h]

theorem mul_representable (x y : Double) : (x.mul y).Representable := by
  cases x with
  | finite s a =>
    cases y with
    | finite t b => exact ofQuanta_representable _ (a * b) one
    | infinite t => exact ite_representable nan_representable (infinite_representable _)
    | nan => exact nan_representable
  | infinite s =>
    cases y with
    | finite t b => exact ite_representable nan_representable (infinite_representable _)
    | infinite t => exact infinite_representable _
    | nan => exact nan_representable
  | nan => cases y <;> exact nan_representable

theorem div_representable (x y : Double) : (x.div y).Representable := by
  cases x with
  | finite s a =>
    cases y with
    | finite t b =>
      exact ite_representable (ite_representable nan_representable (infinite_representable _))
        (ofRatio_representable _ a b)
    | infinite t => exact finite_zero_representable _
    | nan => exact nan_representable
  | infinite s =>
    cases y with
    | finite t b => exact infinite_representable _
    | infinite t => exact nan_representable
    | nan => exact nan_representable
  | nan => cases y <;> exact nan_representable

/-- A representable magnitude is a significand of at most 53 places, scaled by a power of two. -/
theorem exists_significand {q : Nat} (h : nearest q 1 = q) :
    ∃ m, q = m * 2 ^ excess q ∧ m < 2 ^ 53 ∧ (excess q = 0 ∨ 2 ^ 52 ≤ m) := by
  have hunits : q = units q (1 * 2 ^ excess q) * 2 ^ excess q := by
    have := nearest_eq_units q 1
    rw [Nat.div_one] at this
    exact h.symm.trans this
  have hpos : 0 < 2 ^ excess q := Nat.pow_pos (by decide)
  generalize units q (1 * 2 ^ excess q) = m at hunits
  refine ⟨m, hunits, ?_, ?_⟩
  · have hlt := lt_of_excess q
    rw [Nat.pow_add] at hlt
    exact Nat.lt_of_mul_lt_mul_right (Nat.lt_of_le_of_lt (Nat.le_of_eq hunits.symm) hlt)
  · rcases Nat.eq_zero_or_pos (excess q) with h0 | h0
    · exact .inl h0
    · have hle := le_of_excess h0
      rw [Nat.pow_add] at hle
      exact .inr (Nat.le_of_mul_le_mul_right (Nat.le_trans hle (Nat.le_of_eq hunits)) hpos)

theorem pow_excess_le {q : Nat} (h : nearest q 1 = q) (h0 : 0 < q) : 2 ^ excess q ≤ q := by
  obtain ⟨m, hm, -⟩ := exists_significand h
  exact Nat.le_of_dvd h0 (Dvd.intro_left m hm.symm)

end Assay.Double

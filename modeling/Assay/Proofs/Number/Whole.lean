import Assay.Proofs.Document.Sound
import Assay.Proofs.Unit.Written

namespace Assay.Double

variable {m n k unit : Nat} {x y : Int}

attribute [local irreducible] one bound

theorem le_units (num unit : Nat) : num / unit ≤ units num unit := by
  unfold units
  dsimp only
  split <;> omega

theorem units_mono (h : m ≤ n) : units m unit ≤ units n unit := by
  have hdown : m / unit ≤ n / unit := Nat.div_le_div_right h
  have hup := le_units n unit
  have hm := Nat.div_add_mod m unit
  have hn := Nat.div_add_mod n unit
  unfold units at hup ⊢
  dsimp only at hup ⊢
  rcases Nat.lt_or_eq_of_le hdown with hlt | heq
  · split <;> omega
  · -- Both lie between the same multiples, so what is rounded up below is rounded up above.
    have hrest : m % unit ≤ n % unit := by
      rw [heq] at hm
      omega
    simp only [Bool.or_eq_true, Bool.and_eq_true, decide_eq_true_eq, beq_iff_eq] at hup ⊢
    split <;> split <;> omega

theorem units_close (hunit : 0 < unit) :
    2 * (units m unit * unit) ≤ 2 * m + unit ∧ 2 * m ≤ 2 * (units m unit * unit) + unit := by
  have hsum := Nat.div_add_mod' m unit
  have hrest := Nat.mod_lt m hunit
  unfold units
  simp only [Bool.or_eq_true, Bool.and_eq_true, decide_eq_true_eq, beq_iff_eq]
  split
  · rw [Nat.add_mul, Nat.one_mul]
    omega
  · omega

/-- Rounding moves a whole number by at most half of the last place it keeps. -/
theorem nearest_close (n : Nat) :
    2 * nearest n 1 ≤ 2 * n + 2 ^ excess n ∧ 2 * n ≤ 2 * nearest n 1 + 2 ^ excess n := by
  rw [nearest_eq_units, Nat.div_one, Nat.one_mul]
  exact units_close (Nat.pow_pos (by decide))

theorem excess_mono (h : m ≤ n) : excess m ≤ excess n := by
  by_contra hlt
  have hm := le_of_excess (n := m) (by omega)
  have hn := lt_of_excess n
  have hpow : 2 ^ (53 + excess n) ≤ 2 ^ (52 + excess m) :=
    Nat.pow_le_pow_right (by decide) (by omega)
  omega

theorem nearest_mono (h : m ≤ n) (den : Nat) : nearest m den ≤ nearest n den := by
  have hdiv : m / den ≤ n / den := Nat.div_le_div_right h
  rw [nearest_eq_units, nearest_eq_units]
  rcases Nat.lt_or_eq_of_le (excess_mono hdiv) with hlt | heq
  · -- There is a power of two between them.
    have hm : units m (den * 2 ^ excess (m / den)) ≤ 2 ^ 53 := units_le (lt_of_excess _)
    have hn : 2 ^ 52 ≤ units n (den * 2 ^ excess (n / den)) := by
      refine Nat.le_trans ?_ (le_units _ _)
      rw [← Nat.div_div_eq_div_mul, Nat.le_div_iff_mul_le (Nat.pow_pos (by decide)),
        ← Nat.pow_add]
      exact le_of_excess (by omega)
    calc units m (den * 2 ^ excess (m / den)) * 2 ^ excess (m / den)
        ≤ 2 ^ 53 * 2 ^ excess (m / den) := Nat.mul_le_mul_right _ hm
      _ = 2 ^ (53 + excess (m / den)) := (Nat.pow_add 2 53 _).symm
      _ ≤ 2 ^ (52 + excess (n / den)) := Nat.pow_le_pow_right (by decide) (by omega)
      _ = 2 ^ 52 * 2 ^ excess (n / den) := Nat.pow_add 2 52 _
      _ ≤ units n (den * 2 ^ excess (n / den)) * 2 ^ excess (n / den) :=
        Nat.mul_le_mul_right _ hn
  · rw [heq]
    exact Nat.mul_le_mul_right _ (units_mono h)

theorem nearest_self (h : n ≤ 2 ^ 53) : nearest n 1 = n := by
  have hexact := nearest_exact Nat.one_pos h 0
  rwa [Nat.pow_zero, Nat.mul_one, Nat.mul_one] at hexact

theorem units_scale (hk : 0 < k) : units (n * k) (unit * k) = units n unit := by
  unfold units
  dsimp only
  rw [Nat.mul_div_mul_right n unit hk, Nat.mul_mod_mul_right, ← Nat.mul_assoc]
  have hlt : (2 * (n % unit) * k > unit * k) = (2 * (n % unit) > unit) :=
    propext (Nat.mul_lt_mul_right hk)
  have heq : (2 * (n % unit) * k == unit * k) = (2 * (n % unit) == unit) := by
    rw [Bool.eq_iff_iff, beq_iff_eq, beq_iff_eq, Nat.mul_left_inj (by omega)]
  simp only [hlt, heq]

/-- To round a number does not depend on the power of two it is scaled by. -/
theorem nearest_scale (n k : Nat) : nearest (n * 2 ^ k) 1 = nearest n 1 * 2 ^ k := by
  rcases Nat.lt_or_ge (2 ^ 53) n with hlt | hle
  · have hexcess : excess (n * 2 ^ k) = excess n + k := by
      have h0 : 0 < excess n := by
        by_contra h0
        have hn := lt_of_excess n
        rw [show excess n = 0 by omega] at hn
        omega
      apply excess_eq
      · rw [← Nat.add_assoc, Nat.pow_add]
        exact Nat.mul_lt_mul_of_pos_right (lt_of_excess n) (Nat.pow_pos (by decide))
      · right
        rw [← Nat.add_assoc, Nat.pow_add]
        exact Nat.mul_le_mul_right _ (le_of_excess h0)
    rw [nearest_eq_units, nearest_eq_units, Nat.div_one, Nat.div_one, hexcess, Nat.pow_add,
      Nat.one_mul, Nat.one_mul, units_scale (Nat.pow_pos (by decide)), Nat.mul_assoc]
  · have hexact := nearest_exact Nat.one_pos hle k
    rw [Nat.mul_one] at hexact
    rw [hexact, nearest_self hle]

/-- The whole number nearest to a whole number that has 53 significant bits at most. -/
def rounded (n : Int) : Int :=
  if n < 0 then -(nearest n.natAbs 1 : Int) else nearest n.natAbs 1

theorem rounded_mono (h : x ≤ y) : rounded x ≤ rounded y := by
  unfold rounded
  by_cases hx : x < 0
  · by_cases hy : y < 0
    · rw [if_pos hx, if_pos hy]
      have := nearest_mono (show y.natAbs ≤ x.natAbs by omega) 1
      omega
    · rw [if_pos hx, if_neg hy]
      omega
  · rw [if_neg hx, if_neg (by omega)]
    have := nearest_mono (show x.natAbs ≤ y.natAbs by omega) 1
    omega

theorem rounded_self (h : x.natAbs ≤ 2 ^ 53) : rounded x = x := by
  unfold rounded
  rw [nearest_self h]
  split <;> omega

theorem rank?_ofInt (h : (Number.int x).Sound) : (ofInt x).rank? = some (rounded x * one) := by
  have hx : x.natAbs < 2 ^ 64 := by
    obtain ⟨hlow, hhigh⟩ := h
    omega
  have hone : nearest (x.natAbs * one) 1 = nearest x.natAbs 1 * one := by
    rw [one_eq]
    exact nearest_scale _ _
  unfold ofInt ofRatio ofQuanta
  rw [if_pos (ofNat_finite hx).2, hone]
  unfold rank? rounded
  by_cases hneg : x < 0
  · simp [hneg]
  · simp [hneg]

theorem compare?_ofInt (hx : (Number.int x).Sound) (hy : (Number.int y).Sound) :
    (ofInt x).compare? (ofInt y) = some (compare (rounded x) (rounded y)) := by
  have hone : (0 : Int) < one := Int.natCast_pos.mpr one_pos
  have hcompare :
      compare (rounded x * one) (rounded y * one) = compare (rounded x) (rounded y) := by
    rw [Int.compare_eq_ite_lt, Int.compare_eq_ite_lt]
    simp only [Int.mul_lt_mul_right hone]
  unfold compare?
  rw [rank?_ofInt hx, rank?_ofInt hy]
  exact congrArg some hcompare

theorem equals_ofInt (hx : (Number.int x).Sound) (hy : (Number.int y).Sound) :
    (ofInt x).equals (ofInt y) ↔ rounded x = rounded y := by
  unfold equals
  rw [compare?_ofInt hx hy, beq_iff_eq, Option.some.injEq, compare_eq_iff_eq]

theorem less_ofInt (hx : (Number.int x).Sound) (hy : (Number.int y).Sound) :
    (ofInt x).less (ofInt y) ↔ rounded x < rounded y := by
  unfold less
  rw [compare?_ofInt hx hy, beq_iff_eq, Option.some.injEq, compare_lt_iff_lt]

theorem atMost_ofInt (hx : (Number.int x).Sound) (hy : (Number.int y).Sound) :
    (ofInt x).atMost (ofInt y) ↔ rounded x ≤ rounded y := by
  unfold atMost
  rw [Bool.or_eq_true, less_ofInt hx hy, equals_ofInt hx hy]
  omega

/-- Where one of two numbers is below `2 ^ 53`, rounding does not change their order. -/
theorem rounded_lt_iff (h : x.natAbs < 2 ^ 53 ∨ y.natAbs < 2 ^ 53) :
    rounded x < rounded y ↔ x < y := by
  constructor
  · intro hlt
    by_contra hge
    have := rounded_mono (show y ≤ x by omega)
    omega
  · intro hlt
    rcases h with hx | hy
    · rw [rounded_self (show x.natAbs ≤ 2 ^ 53 by omega)]
      by_cases hy : y ≤ 2 ^ 53
      · rwa [rounded_self (by omega)]
      · have hmono := rounded_mono (show 2 ^ 53 ≤ y by omega)
        rw [rounded_self (show (2 ^ 53 : Int).natAbs ≤ 2 ^ 53 by decide)] at hmono
        omega
    · rw [rounded_self (show y.natAbs ≤ 2 ^ 53 by omega)]
      by_cases hx : -2 ^ 53 ≤ x
      · rwa [rounded_self (by omega)]
      · have hmono := rounded_mono (show x ≤ -2 ^ 53 by omega)
        rw [rounded_self (show (-2 ^ 53 : Int).natAbs ≤ 2 ^ 53 by decide)] at hmono
        omega

end Assay.Double

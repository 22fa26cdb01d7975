import Assay.Proofs.Number.Whole
import Assay.Proofs.Value.Equality

namespace Assay.Double

variable {x y r b : Double} {c i j k n p q : Nat}

attribute [local irreducible] one bound

/-- A number from zero to a power of two. Zero may have either sign. -/
def UpTo (e : Nat) (x : Double) : Prop :=
  ∃ s q, x = finite s q ∧ (s = true → q = 0) ∧ q ≤ 2 ^ e * one

/-- A number that is at least a power of two, or infinite. -/
def From (e : Nat) (x : Double) : Prop :=
  x = infinite false ∨ ∃ q, x = finite false q ∧ 2 ^ e * one ≤ q

theorem pow_mul_one (e : Nat) : 2 ^ e * one = 2 ^ (e + 1074) := by
  rw [one_eq, Nat.pow_add]

theorem bound_eq_pow : bound = 2 ^ 1024 * one := by
  rw [bound_eq, one_eq, ← Nat.pow_add]

theorem pow_mul_one_lt (h : i < j) : 2 ^ i * one < 2 ^ j * one :=
  Nat.mul_lt_mul_of_pos_right (Nat.pow_lt_pow_right (by decide) h) one_pos

theorem pow_mul_one_le (h : i ≤ j) : 2 ^ i * one ≤ 2 ^ j * one :=
  Nat.mul_le_mul_right one (Nat.pow_le_pow_right (by decide) h)

theorem lt_bound_of_le_pow (h : q ≤ 2 ^ i * one) (hi : i < 1024) : q < bound := by
  rw [bound_eq_pow]
  exact Nat.lt_of_le_of_lt h (pow_mul_one_lt hi)

theorem nearest_pow (e : Nat) {den : Nat} (hden : 0 < den) :
    nearest (2 ^ e * one * den) den = 2 ^ e * one := by
  have hexact := nearest_exact hden (m := 1) (by decide) (e + 1074)
  rwa [Nat.one_mul, ← pow_mul_one] at hexact

theorem nearest_pow_one (e : Nat) : nearest (2 ^ e * one) 1 = 2 ^ e * one := by
  have hpow := nearest_pow e Nat.one_pos
  rwa [Nat.mul_one] at hpow

theorem nearest_zero (den : Nat) : nearest 0 den = 0 := by
  simp [nearest_eq_units, units]

theorem nearest_le_pow (h : q ≤ 2 ^ i * one) : nearest q 1 ≤ 2 ^ i * one :=
  nearest_pow_one i ▸ nearest_mono h 1

theorem le_nearest_pow (h : 2 ^ i * one ≤ q) : 2 ^ i * one ≤ nearest q 1 :=
  nearest_pow_one i ▸ nearest_mono h 1

theorem pow_mul_pow (i j : Nat) : 2 ^ i * one * (2 ^ j * one) = 2 ^ (i + j) * one * one := by
  rw [Nat.pow_add]
  ring

theorem upTo_of_le {e : Nat} (h : q ≤ 2 ^ e * one) : (finite false q).UpTo e :=
  ⟨false, q, rfl, Bool.noConfusion, h⟩

theorem UpTo.mul (hx : x.UpTo i) (hy : y.UpTo j) (h : i + j < 1024) : (x.mul y).UpTo (i + j) := by
  obtain ⟨s, p, rfl, hs, hp⟩ := hx
  obtain ⟨t, q, rfl, ht, hq⟩ := hy
  have hle : nearest (p * q) one ≤ 2 ^ (i + j) * one := by
    have hmono := nearest_mono (Nat.mul_le_mul hp hq) one
    rwa [pow_mul_pow, nearest_pow (i + j) one_pos] at hmono
  refine ⟨s != t, nearest (p * q) one, ?_, ?_, hle⟩
  · rw [Double.mul, ofQuanta, if_pos (lt_bound_of_le_pow hle h)]
  · intro hsigns
    have hzero : p * q = 0 := by
      cases s with
      | true => rw [hs rfl, Nat.zero_mul]
      | false =>
        cases t with
        | true => rw [ht rfl, Nat.mul_zero]
        | false => cases hsigns
    rw [hzero, nearest_zero]

theorem From.mul (hx : x.From i) (hy : y.From j) : (x.mul y).From (i + j) := by
  have hpos (e : Nat) : 0 < 2 ^ e * one := Nat.mul_pos (Nat.pow_pos (by decide)) one_pos
  rcases hx with rfl | ⟨p, rfl, hp⟩
  · rcases hy with rfl | ⟨q, rfl, hq⟩
    · exact .inl rfl
    · have hne : q ≠ 0 := by
        have := hpos j
        omega
      rw [Double.mul, if_neg hne]
      exact .inl rfl
  · rcases hy with rfl | ⟨q, rfl, hq⟩
    · have hne : p ≠ 0 := by
        have := hpos i
        omega
      rw [Double.mul, if_neg hne]
      exact .inl rfl
    · have hle : 2 ^ (i + j) * one ≤ nearest (p * q) one := by
        have hmono := nearest_mono (Nat.mul_le_mul hp hq) one
        rwa [pow_mul_pow, nearest_pow (i + j) one_pos] at hmono
      rw [Double.mul, ofQuanta]
      split
      · exact .inr ⟨_, rfl, hle⟩
      · exact .inl rfl

theorem lt_bound_of_mul {s : Bool} (h : x.mul y = finite s q) : q < bound := by
  unfold Double.mul at h
  split at h
  · unfold ofQuanta at h
    split at h
    · cases h
      assumption
    · cases h
  · split at h <;> cases h
  · split at h <;> cases h
  · cases h
  · cases h

/-- What repeated squaring has gathered after looking at the last bit of the exponent. -/
def gathered (r b : Double) (n : Nat) : Double := if n % 2 = 1 then r.mul b else r

theorem powNat_last (hn : n / 2 = 0) : powNat r b n = gathered r b n := by
  rw [powNat, dif_pos hn]
  rfl

theorem powNat_step (hn : n / 2 ≠ 0) :
    powNat r b n = powNat (gathered r b n) (b.mul b) (n / 2) := by
  rw [powNat, dif_neg hn]
  rfl

theorem UpTo.gathered (hr : r.UpTo i) (hb : b.UpTo k) (h : i + k * (n % 2) < 1024) :
    (gathered r b n).UpTo (i + k * (n % 2)) := by
  unfold Double.gathered
  rcases Nat.mod_two_eq_zero_or_one n with hbit | hbit
  · rw [if_neg (by omega), hbit]
    exact hr
  · rw [hbit, Nat.mul_one] at h ⊢
    rw [if_pos rfl]
    exact hr.mul hb h

/-- Repeated squaring stays below the power of two that it comes to. -/
theorem UpTo.powNat (hr : r.UpTo i) (hb : b.UpTo k) (h : i + k * n < 1024) :
    (powNat r b n).UpTo (i + k * n) := by
  induction n using Nat.strongRecOn generalizing r b i k with
  | ind n ih =>
    have hsplit : i + k * n = i + k * (n % 2) + (k + k) * (n / 2) := by
      conv_lhs => rw [← Nat.mod_add_div n 2]
      ring
    rw [hsplit] at h ⊢
    have hr' : (Double.gathered r b n).UpTo (i + k * (n % 2)) := hr.gathered hb (by omega)
    by_cases hn : n / 2 = 0
    · rw [powNat_last hn, hn]
      exact hr'
    · have hsquare : k + k < 1024 := by
        have := Nat.le_mul_of_pos_right (k + k) (Nat.pos_of_ne_zero hn)
        omega
      rw [powNat_step hn]
      exact ih (n / 2) (by omega) hr' (hb.mul hb hsquare) h

theorem From.gathered (hr : r.From i) (hb : b.From k) :
    (gathered r b n).From (i + k * (n % 2)) := by
  unfold Double.gathered
  rcases Nat.mod_two_eq_zero_or_one n with hbit | hbit
  · rw [if_neg (by omega), hbit]
    exact hr
  · rw [hbit, Nat.mul_one, if_pos rfl]
    exact hr.mul hb

theorem From.powNat (hr : r.From i) (hb : b.From k) : (powNat r b n).From (i + k * n) := by
  induction n using Nat.strongRecOn generalizing r b i k with
  | ind n ih =>
    have hsplit : i + k * n = i + k * (n % 2) + (k + k) * (n / 2) := by
      conv_lhs => rw [← Nat.mod_add_div n 2]
      ring
    have hr' : (Double.gathered r b n).From (i + k * (n % 2)) := hr.gathered hb
    rw [hsplit]
    by_cases hn : n / 2 = 0
    · rw [powNat_last hn, hn]
      exact hr'
    · rw [powNat_step hn]
      exact ih (n / 2) (by omega) hr' (hb.mul hb)

theorem lt_bound_of_powNat {s : Bool} (hpos : 0 < n) (h : powNat r b n = finite s q) :
    q < bound := by
  induction n using Nat.strongRecOn generalizing r b with
  | ind n ih =>
    by_cases hn : n / 2 = 0
    · have hone : n % 2 = 1 := by omega
      rw [powNat_last hn, gathered, if_pos hone] at h
      exact lt_bound_of_mul h
    · rw [powNat_step hn] at h
      exact ih (n / 2) (by omega) (Nat.pos_of_ne_zero hn) h

theorem nearest_add_one (h : 54 ≤ j) : nearest (2 ^ j * one + one) 1 = 2 ^ j * one := by
  have hplace : 2 ^ (j + 1022) = 2 ^ (j - 52) * one := by
    rw [pow_mul_one, show j - 52 + 1074 = j + 1022 by omega]
  have hpower : 2 ^ 52 * 2 ^ (j + 1022) = 2 ^ j * one := by
    rw [hplace, ← Nat.mul_assoc, ← Nat.pow_add, show 52 + (j - 52) = j by omega]
  have hone : 2 * one ≤ 2 ^ (j + 1022) := by
    rw [hplace]
    exact pow_mul_one_le (i := 1) (by omega)
  rw [← hpower]
  apply nearest_eq_of_close Nat.one_pos (by decide) (.inr (Nat.le_refl _))
  · omega
  · omega
  · exact fun _ => by decide
  · exact fun _ _ => by omega

theorem ofNat_exact (h : c ≤ 2 ^ 53) : ofNat c = finite false (c * one) := by
  rw [(ofNat_finite (Nat.lt_of_le_of_lt h (by decide))).1, nearest_whole h]

theorem less_iff {u v : Int} (hx : x.rank? = some u) (hy : y.rank? = some v) :
    x.less y ↔ u < v := by
  simp [less, compare?, hx, hy, compare_lt_iff_lt]

theorem atMost_iff {u v : Int} (hx : x.rank? = some u) (hy : y.rank? = some v) :
    x.atMost y ↔ u ≤ v := by
  rw [atMost, Bool.or_eq_true, less_iff hx hy, equals_iff, Int.le_iff_lt_or_eq]
  simp [hx, hy, eq_comm]

theorem ofNat_pow (h : k < 1024) : ofNat (2 ^ k) = finite false (2 ^ k * one) := by
  rw [ofNat, ofRatio, nearest_pow_one, ofQuanta, if_pos (lt_bound_of_le_pow (Nat.le_refl _) h)]

theorem rank?_ofNat_pow (h : k ≤ 1024) : (ofNat (2 ^ k)).rank? = some (2 ^ k * one : Nat) := by
  rcases Nat.lt_or_eq_of_le h with hlt | rfl
  · rw [ofNat_pow hlt]
    rfl
  · rw [ofNat, ofRatio, nearest_pow_one, ofQuanta, ← bound_eq_pow, if_neg (Nat.lt_irrefl _)]
    rfl

/-- What is no less than zero is infinite or has no sign that counts. -/
theorem maximum_zero_cases (x : Double) : x.maximum zero = infinite false ∨
    ∃ s q, x.maximum zero = finite s q ∧ (s = true → q = 0) := by
  have hzero : zero.rank? = some 0 := rfl
  cases x with
  | nan => exact .inr ⟨false, 0, rfl, nofun⟩
  | infinite s =>
    cases s with
    | true =>
      have hless : (infinite true).less zero := by
        rw [less_iff rfl hzero, if_pos rfl]
        have := bound_pos
        omega
      exact .inr ⟨false, 0, if_pos hless, nofun⟩
    | false =>
      have hless : ¬ (infinite false).less zero := by
        rw [less_iff rfl hzero]
        exact Int.not_lt.mpr (Int.natCast_nonneg _)
      exact .inl (if_neg hless)
  | finite s q =>
    by_cases hless : (finite s q).less zero
    · exact .inr ⟨false, 0, if_pos hless, nofun⟩
    · refine .inr ⟨s, q, if_neg hless, ?_⟩
      rintro rfl
      rw [less_iff rfl hzero] at hless
      simp only [if_true] at hless
      omega

theorem upTo_of_atMost (hk : k < 1024) (h : (x.maximum zero).atMost (ofNat (2 ^ k))) :
    (x.maximum zero).UpTo k := by
  have hpow := rank?_ofNat_pow (Nat.le_of_lt hk)
  rcases maximum_zero_cases x with hx | ⟨s, q, hx, hs⟩
  · rw [hx, atMost_iff rfl hpow, bound_eq_pow] at h
    have hlt := pow_mul_one_lt hk
    simp only [Bool.false_eq_true, if_false, Int.ofNat_le] at h
    omega
  · rw [hx, atMost_iff rfl hpow] at h
    refine ⟨s, q, hx, hs, ?_⟩
    cases s with
    | true =>
      rw [hs rfl]
      exact Nat.zero_le _
    | false => exact Int.ofNat_le.mp h

theorem from_of_atMost (hk : k ≤ 1024) (h : (ofNat (2 ^ k)).atMost (x.maximum zero)) :
    (x.maximum zero).From k := by
  have hpow := rank?_ofNat_pow hk
  rcases maximum_zero_cases x with hx | ⟨s, q, hx, hs⟩
  · exact .inl hx
  · rw [hx, atMost_iff hpow rfl] at h
    cases s with
    | true =>
      have hpos : 0 < 2 ^ k * one := Nat.mul_pos (Nat.pow_pos (by decide)) one_pos
      rw [hs rfl] at h
      simp only [if_true] at h
      omega
    | false => exact .inr ⟨q, hx, Int.ofNat_le.mp h⟩

end Assay.Double

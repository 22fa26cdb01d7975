import Assay.Number.Reading
import Assay.Proofs.Number.Shortest

namespace Assay

open Double (one bound excess nearest)

attribute [local irreducible] one bound

theorem digitsFrom_eq (n : Nat) (cs : List Char) : digitsFrom n cs = Nat.ofDigitChars 10 cs n := by
  rw [Nat.ofDigitChars_eq_foldl, digitsFrom]
  congr 1
  funext n c
  rw [Nat.mul_comm]
  rfl

theorem digitsFrom_append (n : Nat) (cs ds : List Char) :
    digitsFrom n (cs ++ ds) = digitsFrom (digitsFrom n cs) ds := List.foldl_append

theorem digitsFrom_toDigits (n : Nat) : digitsFrom 0 (Nat.toDigits 10 n) = n := by
  rw [digitsFrom_eq, Nat.ofDigitChars_ten_toDigits]

theorem digitsFrom_zeros (n k : Nat) : digitsFrom n (List.replicate k '0') = n * 10 ^ k := by
  rw [digitsFrom_eq, Nat.ofDigitChars_replicate_zero, Nat.mul_comm]

def AllDigits (cs : List Char) : Prop := ∀ c ∈ cs, c.isDigit

theorem allDigits_toDigits (n : Nat) : AllDigits (Nat.toDigits 10 n) :=
  fun _ hc => Nat.isDigit_of_mem_toDigits (by decide) (by decide) hc

theorem allDigits_zeros (k : Nat) : AllDigits (List.replicate k '0') := by
  intro c hc
  rw [List.eq_of_mem_replicate hc]
  rfl

theorem AllDigits.append {cs ds : List Char} (hcs : AllDigits cs) (hds : AllDigits ds) :
    AllDigits (cs ++ ds) := List.forall_mem_append.mpr ⟨hcs, hds⟩

theorem AllDigits.takeWhile {cs : List Char} (h : AllDigits cs) (rest : List Char) :
    (cs ++ rest).takeWhile Char.isDigit = cs ++ rest.takeWhile Char.isDigit :=
  List.takeWhile_append_of_pos h

theorem AllDigits.dropWhile {cs : List Char} (h : AllDigits cs) (rest : List Char) :
    (cs ++ rest).dropWhile Char.isDigit = rest.dropWhile Char.isDigit :=
  List.dropWhile_append_of_pos h

section Magnitude

variable {whole fraction : List Char}

theorem readMagnitude?_whole (negative : Bool) (h : AllDigits whole) (hne : whole ≠ []) :
    readMagnitude? negative whole = some (.ofDecimal negative (digitsFrom 0 whole) 0) := by
  have htake : whole.takeWhile Char.isDigit = whole := by simpa using h.takeWhile []
  have hdrop : whole.dropWhile Char.isDigit = [] := by simpa using h.dropWhile []
  have hempty : whole.isEmpty = false := by simpa using hne
  unfold readMagnitude?
  simp [htake, hdrop, hempty, readExponent?]

theorem readMagnitude?_point (negative : Bool) (h : AllDigits whole) (hne : whole ≠ [])
    (hf : AllDigits fraction) :
    readMagnitude? negative (whole ++ '.' :: fraction) =
      some (.ofDecimal negative (digitsFrom 0 (whole ++ fraction)) (-fraction.length)) := by
  have hpoint : Char.isDigit '.' = false := rfl
  have htake : (whole ++ '.' :: fraction).takeWhile Char.isDigit = whole := by
    rw [h.takeWhile, List.takeWhile_cons, hpoint]
    simp
  have hdrop : (whole ++ '.' :: fraction).dropWhile Char.isDigit = '.' :: fraction := by
    rw [h.dropWhile, List.dropWhile_cons, hpoint]
    simp
  have htakeFraction : fraction.takeWhile Char.isDigit = fraction := by
    simpa using hf.takeWhile []
  have hdropFraction : fraction.dropWhile Char.isDigit = [] := by simpa using hf.dropWhile []
  have hempty : whole.isEmpty = false := by simpa using hne
  unfold readMagnitude?
  simp [htake, hdrop, htakeFraction, hdropFraction, hempty, readExponent?]

variable {ds : List Char}

theorem readMagnitude?_behind (negative : Bool) (hds : AllDigits ds) (k : Nat) :
    readMagnitude? negative ('0' :: '.' :: (List.replicate k '0' ++ ds)) =
      some (.ofDecimal negative (digitsFrom 0 ds) (-(k + ds.length : Nat))) := by
  have hread := readMagnitude?_point negative (allDigits_zeros 1) (by decide)
    ((allDigits_zeros k).append hds)
  rw [digitsFrom_append, digitsFrom_append, digitsFrom_zeros, digitsFrom_zeros, Nat.zero_mul,
    Nat.zero_mul, List.length_append, List.length_replicate] at hread
  exact hread

theorem readMagnitude?_trailing (negative : Bool) (hds : AllDigits ds) (hne : ds ≠ []) (k : Nat) :
    readMagnitude? negative (ds ++ List.replicate k '0') =
      some (.ofDecimal negative (digitsFrom 0 ds * 10 ^ k) 0) := by
  rw [readMagnitude?_whole negative (hds.append (allDigits_zeros k)) (by simp [hne]),
    digitsFrom_append, digitsFrom_zeros]

theorem readMagnitude?_within (negative : Bool) (hds : AllDigits ds) (hne : ds ≠ []) {k : Nat}
    (hk : 0 < k) :
    readMagnitude? negative (ds.take k ++ '.' :: ds.drop k) =
      some (.ofDecimal negative (digitsFrom 0 ds) (-(ds.length - k : Nat))) := by
  have htake : AllDigits (ds.take k) := fun c hc => hds c (List.mem_of_mem_take hc)
  have hdrop : AllDigits (ds.drop k) := fun c hc => hds c (List.mem_of_mem_drop hc)
  have htake_ne : ds.take k ≠ [] := by
    intro hnil
    rcases List.take_eq_nil_iff.mp hnil with h | h
    · omega
    · exact hne h
  rw [readMagnitude?_point negative htake htake_ne hdrop, List.take_append_drop,
    List.length_drop]

end Magnitude

theorem Decimal.whole_value {d : Decimal} (h : 0 ≤ d.exponent) :
    (⟨d.digits * 10 ^ d.exponent.toNat, 0⟩ : Decimal).value = d.value := by
  unfold Decimal.value
  rw [zpow_zero, mul_one]
  push_cast
  congr 1
  rw [← zpow_natCast, Int.toNat_of_nonneg h]

/-- Read back, the digits of a decimal with its point stand for a decimal of the same value. -/
theorem readMagnitude?_positional (negative : Bool) (d : Decimal) :
    ∃ e : Decimal, e.value = d.value ∧
      readMagnitude? negative (DecimalLayout.plain.positional (Nat.toDigits 10 d.digits)
        ((Nat.toDigits 10 d.digits).length + d.exponent)) =
        some (.ofDecimal negative e.digits e.exponent) := by
  have hds := allDigits_toDigits d.digits
  have hne : Nat.toDigits 10 d.digits ≠ [] := List.ne_nil_of_length_pos Nat.length_toDigits_pos
  have hread := digitsFrom_toDigits d.digits
  generalize Nat.toDigits 10 d.digits = ds at hds hne hread ⊢
  unfold DecimalLayout.positional DecimalLayout.zeros
  split
  next hle =>
    have hbehind := readMagnitude?_behind negative hds (-(ds.length + d.exponent)).toNat
    have hexponent : -(((-(ds.length + d.exponent)).toNat + ds.length : Nat) : ℤ) = d.exponent := by
      omega
    rw [hread, hexponent] at hbehind
    exact ⟨d, rfl, hbehind⟩
  next hpos =>
    split
    next hle =>
      have htrailing := readMagnitude?_trailing negative hds hne d.exponent.toNat
      have hzeros : ((ds.length : ℤ) + d.exponent - ds.length).toNat = d.exponent.toNat := by omega
      rw [hread] at htrailing
      rw [hzeros]
      refine ⟨_, Decimal.whole_value (by omega), ?_⟩
      simpa [DecimalLayout.plain] using htrailing
    next hgt =>
      have hwithin := readMagnitude?_within negative hds hne
        (k := (ds.length + d.exponent).toNat) (by omega)
      have hexponent : -((ds.length - (ds.length + d.exponent).toNat : Nat) : ℤ) = d.exponent := by
        omega
      rw [hread, hexponent] at hwithin
      exact ⟨d, rfl, hwithin⟩

section Places

variable {d : Decimal}

/-- How many places before the point the digits of a decimal reach. -/
def Decimal.places (d : Decimal) : ℤ := (Nat.toDigits 10 d.digits).length + d.exponent

theorem Decimal.value_lt (d : Decimal) : d.value < 10 ^ d.places := by
  have hdigits : d.digits < 10 ^ (Nat.toDigits 10 d.digits).length :=
    (Nat.length_toDigits_le_iff (by decide) Nat.length_toDigits_pos).mp (Nat.le_refl _)
  unfold Decimal.value Decimal.places
  rw [zpow_add₀ (by norm_num : (10 : ℚ) ≠ 0), zpow_natCast]
  apply mul_lt_mul_of_pos_right _ (zpow_pos (by norm_num) _)
  exact_mod_cast hdigits

theorem Decimal.le_value (h : 0 < d.digits) : 10 ^ (d.places - 1) ≤ d.value := by
  have hdigits := pow_digitCount_le h
  have hlength := Nat.length_toDigits_pos (b := 10) (n := d.digits)
  rw [digitCount, if_neg (by omega)] at hdigits
  unfold Decimal.value Decimal.places
  generalize (Nat.toDigits 10 d.digits).length = n at hdigits hlength
  have hplaces : (n : ℤ) + d.exponent - 1 = ((n - 1 : Nat) : ℤ) + d.exponent := by omega
  rw [hplaces, zpow_add₀ (by norm_num : (10 : ℚ) ≠ 0), zpow_natCast]
  apply mul_le_mul_of_nonneg_right _ (zpow_pos (by norm_num) _).le
  exact_mod_cast hdigits

theorem one_le_zpow_ten : (one : ℚ) ≤ 10 ^ (330 : ℤ) := by
  have hten : (one : ℚ) ≤ (10 ^ 330 : Nat) := by exact_mod_cast one_le_pow_ten (Nat.le_refl 330)
  rwa [Nat.cast_pow, ← zpow_natCast] at hten

variable {q : Nat}

theorem places_le (hq : q < bound) (h : 4 * one * d.value ≤ 6 * q) (h0 : 0 < d.digits) :
    d.places ≤ 400 := by
  by_contra hgt
  have hone : (0 : ℚ) < one := by exact_mod_cast Double.one_pos
  have hbound : bound ≤ one * one := by
    have hsquare {m n : Nat} (h : m ≤ n + n) : 2 ^ m ≤ 2 ^ n * 2 ^ n := by
      rw [← Nat.pow_add]
      exact Nat.pow_le_pow_right (by decide) h
    rw [Double.bound_eq, Double.one_eq]
    exact hsquare (by decide)
  have hq' : (q : ℚ) < one * one := by exact_mod_cast hq.trans_le hbound
  have hvalue : (10 : ℚ) ^ (400 : ℤ) ≤ d.value :=
    (zpow_le_zpow_right₀ (by norm_num) (by omega)).trans (Decimal.le_value h0)
  have hsmall : 4 * one * d.value < 4 * one * 10 ^ (400 : ℤ) := by
    calc 4 * one * d.value ≤ 6 * q := h
      _ < 6 * (one * one) := by linarith
      _ = 4 * one * (3 / 2 * one) := by ring
      _ ≤ 4 * one * 10 ^ (400 : ℤ) := by
        apply mul_le_mul_of_nonneg_left _ (by linarith)
        have hwide : (10 : ℚ) ^ (400 : ℤ) = 10 ^ (330 : ℤ) * 10 ^ (70 : ℤ) := by
          rw [← zpow_add₀ (by norm_num)]
          rfl
        have hfactor : (2 : ℚ) ≤ 10 ^ (70 : ℤ) := by norm_num
        have hten := one_le_zpow_ten
        rw [hwide]
        generalize (10 : ℚ) ^ (330 : ℤ) = t at hten
        generalize (10 : ℚ) ^ (70 : ℤ) = u at hfactor
        have hproduct := mul_le_mul_of_nonneg_left hfactor (hone.le.trans hten)
        linarith
  exact absurd hvalue (not_le.mpr (lt_of_mul_lt_mul_left hsmall (by linarith)))

theorem le_places (h : 1 ≤ 4 * one * d.value) : -400 ≤ d.places := by
  by_contra hlt
  have hone : (0 : ℚ) < one := by exact_mod_cast Double.one_pos
  have hvalue : d.value < 10 ^ (-400 : ℤ) :=
    (Decimal.value_lt d).trans_le (zpow_le_zpow_right₀ (by norm_num) (by omega))
  have hsmall : 4 * one * d.value < 4 * (10 ^ (330 : ℤ) * 10 ^ (-400 : ℤ)) := by
    calc 4 * one * d.value < 4 * one * 10 ^ (-400 : ℤ) :=
          mul_lt_mul_of_pos_left hvalue (by linarith)
      _ = 4 * (one * 10 ^ (-400 : ℤ)) := by ring
      _ ≤ 4 * (10 ^ (330 : ℤ) * 10 ^ (-400 : ℤ)) := by
        have := mul_le_mul_of_nonneg_right one_le_zpow_ten
          (zpow_pos (by norm_num : (0 : ℚ) < 10) (-400)).le
        linarith
  have htiny : (10 : ℚ) ^ (330 : ℤ) * 10 ^ (-400 : ℤ) = 10 ^ (-70 : ℤ) := by
    rw [← zpow_add₀ (by norm_num)]
    rfl
  rw [htiny] at hsmall
  norm_num at hsmall
  linarith

end Places

namespace Double

variable {q : Nat} {d : Decimal}

/-- A decimal in the rounding range of a double is read as that double. -/
theorem ofDecimal_of_contains (negative : Bool) (hq : nearest q 1 = q) (h0 : 0 < q)
    (hbound : q < bound) (h : (RoundingRange.ofQuanta q).Contains (4 * one * d.value)) :
    ofDecimal negative d.digits d.exponent = finite negative q := by
  obtain ⟨hlow, -, hhigh⟩ := RoundingRange.ofQuanta_bounds hq h0
  have hlow' : 1 ≤ 4 * one * d.value := by
    have hcast : (1 : ℚ) ≤ (RoundingRange.ofQuanta q).low := by exact_mod_cast hlow
    exact hcast.trans h.low_le
  have hdigits : 0 < d.digits := by
    rcases Nat.eq_zero_or_pos d.digits with hzero | hpos
    · exfalso
      rw [Decimal.value, hzero, Nat.cast_zero, zero_mul, mul_zero] at hlow'
      norm_num at hlow'
    · exact hpos
  have hhigh' : 4 * one * d.value ≤ 6 * q := by
    have hcast : ((RoundingRange.ofQuanta q).high : ℚ) ≤ 6 * q := by exact_mod_cast hhigh
    exact h.le_high.trans hcast
  have hupper := places_le hbound hhigh' hdigits
  have hlower := le_places hlow'
  unfold Decimal.places at hupper hlower
  have hne : d.digits ≠ 0 := by omega
  have hden : 0 < 10 ^ (-d.exponent).toNat := Nat.pow_pos (by decide)
  have hvalue : (4 * ((d.digits * 10 ^ d.exponent.toNat * one : Nat) : ℚ) /
      (10 ^ (-d.exponent).toNat : Nat)) = 4 * one * d.value := by
    unfold Decimal.value
    rw [zpow_eq_div]
    push_cast
    ring
  unfold ofDecimal
  rw [if_neg hne, if_neg hne, if_neg (by omega), if_neg (by omega)]
  unfold ofRatio Double.ofQuanta
  rw [Nat.pow_eq, Nat.pow_eq,
    RoundingRange.nearest_of_contains hq hden (by rwa [hvalue]), if_pos hbound]

end Double

namespace DecimalLayout

variable {ds : List Char} {point : ℤ} {q : Nat}

theorem plain_magnitude (h0 : 0 < q) :
    plain.magnitude q = plain.positional (Nat.toDigits 10 (shortest q).digits)
      ((Nat.toDigits 10 (shortest q).digits).length + (shortest q).exponent) := by
  have hne : q ≠ 0 := by omega
  unfold magnitude
  simp [plain, hne]

theorem digit_or_point_of_mem_positional (hds : AllDigits ds) :
    ∀ c ∈ plain.positional ds point, c.isDigit ∨ c = '.' := by
  intro c hc
  have hzeros : ∀ n, c ∈ zeros n → c.isDigit := fun n h => allDigits_zeros n.toNat c h
  unfold positional at hc
  split at hc
  · simp only [List.mem_cons, List.mem_append] at hc
    rcases hc with rfl | rfl | h | h
    · exact .inl rfl
    · exact .inr rfl
    · exact .inl (hzeros _ h)
    · exact .inl (hds c h)
  · split at hc
    · simp only [plain, List.mem_append, Bool.false_eq_true, if_false, List.not_mem_nil,
        or_false] at hc
      rcases hc with h | h
      · exact .inl (hds c h)
      · exact .inl (hzeros _ h)
    · simp only [List.mem_append, List.mem_cons] at hc
      rcases hc with h | rfl | h
      · exact .inl (hds c (List.mem_of_mem_take h))
      · exact .inr rfl
      · exact .inl (hds c (List.mem_of_mem_drop h))

theorem positional_eq_cons (hds : AllDigits ds) (hne : ds ≠ []) :
    ∃ c cs, plain.positional ds point = c :: cs ∧ c.isDigit := by
  obtain ⟨d, r, rfl⟩ := List.exists_cons_of_ne_nil hne
  have hd : d.isDigit := hds d List.mem_cons_self
  unfold positional
  split
  · exact ⟨_, _, rfl, rfl⟩
  next hpos =>
    split
    · exact ⟨_, _, rfl, hd⟩
    · obtain ⟨n, hn⟩ : ∃ n, point.toNat = n + 1 := ⟨point.toNat - 1, by omega⟩
      rw [hn]
      exact ⟨_, _, rfl, hd⟩

theorem digit_or_point_of_mem_magnitude :
    ∀ c ∈ plain.magnitude q, c.isDigit ∨ c = '.' := by
  rcases Nat.eq_zero_or_pos q with rfl | h0
  · intro c hc
    have hzero : plain.magnitude 0 = ['0'] := by decide
    rw [hzero, List.mem_singleton] at hc
    exact .inl (hc ▸ rfl)
  · rw [plain_magnitude h0]
    exact digit_or_point_of_mem_positional (allDigits_toDigits _)

theorem magnitude_eq_cons (q : Nat) : ∃ c cs, plain.magnitude q = c :: cs ∧ c.isDigit := by
  rcases Nat.eq_zero_or_pos q with rfl | h0
  · exact ⟨'0', [], by decide, by decide⟩
  · rw [plain_magnitude h0]
    exact positional_eq_cons (allDigits_toDigits _) (List.ne_nil_of_length_pos
      Nat.length_toDigits_pos)

end DecimalLayout

namespace Double

variable {q : Nat}

theorem readMagnitude?_magnitude {negative : Bool} (h : (finite negative q).Representable) :
    readMagnitude? negative (DecimalLayout.plain.magnitude q) = some (finite negative q) := by
  rcases Nat.eq_zero_or_pos q with rfl | h0
  · cases negative <;> decide
  · obtain ⟨d, hvalue, hread⟩ := readMagnitude?_positional negative (shortest q)
    have hcontains := shortest_contains h.1 h0
    rw [← hvalue] at hcontains
    rw [DecimalLayout.plain_magnitude h0, hread,
      ofDecimal_of_contains negative h.1 h0 h.2 hcontains]

theorem toLower_of_isDigit {c : Char} (hc : c.isDigit) : c.toLower = c := by
  simp only [Char.isDigit, Bool.and_eq_true, decide_eq_true_eq] at hc
  unfold Char.toLower
  rw [dif_neg]
  intro h
  exact absurd (UInt32.le_trans h.1 hc.2) (by decide)

theorem ne_of_isDigit {c d : Char} (hc : c.isDigit) (hd : d.isDigit = false) : c ≠ d := by
  rintro rfl
  rw [hc] at hd
  cases hd

theorem lower_ne_name {c d : Char} {cs ds : List Char} {w : String} (hc : c.isDigit)
    (hw : w.toList = d :: ds) (hd : d.isDigit = false) :
    (String.ofList ((c :: cs).map Char.toLower) == w) = false := by
  rw [beq_eq_false_iff_ne]
  rintro rfl
  rw [String.toList_ofList, List.map_cons, toLower_of_isDigit hc] at hw
  exact ne_of_isDigit hc hd (List.cons.inj hw).1

theorem read?_digit {c : Char} (hc : c.isDigit) (negative : Bool) (cs : List Char) :
    Double.read? ((if negative then ['-'] else []) ++ c :: cs) =
      readMagnitude? negative (c :: cs) := by
  have hinf : (String.ofList ((c :: cs).map Char.toLower) == "inf") = false :=
    lower_ne_name hc rfl rfl
  have hinfinity : (String.ofList ((c :: cs).map Char.toLower) == "infinity") = false :=
    lower_ne_name hc rfl rfl
  have hnan : (String.ofList ((c :: cs).map Char.toLower) == "nan") = false :=
    lower_ne_name hc rfl rfl
  have hbody (negative : Bool) :
      (if String.ofList ((c :: cs).map Char.toLower) == "inf" ||
          String.ofList ((c :: cs).map Char.toLower) == "infinity" then some (infinite negative)
        else if String.ofList ((c :: cs).map Char.toLower) == "nan" then some nan
        else readMagnitude? negative (c :: cs)) = readMagnitude? negative (c :: cs) := by
    rw [hinf, hinfinity, hnan]
    rfl
  cases negative with
  | true => exact hbody true
  | false =>
    rw [if_neg (by decide), List.nil_append]
    unfold Double.read?
    dsimp only
    split
    next heq => exact absurd (List.cons.inj heq).1 (ne_of_isDigit hc rfl)
    next heq => exact absurd (List.cons.inj heq).1 (ne_of_isDigit hc rfl)
    next => exact hbody false

theorem read?_write {x : Double} (h : x.Representable) :
    Double.read? (DecimalLayout.plain.write x).toList = some x := by
  cases x with
  | finite negative q =>
    obtain ⟨c, cs, hmagnitude, hc⟩ := DecimalLayout.magnitude_eq_cons q
    have hread := readMagnitude?_magnitude h
    unfold DecimalLayout.write
    rw [String.toList_ofList]
    rw [hmagnitude] at hread ⊢
    rw [read?_digit hc, hread]
  | infinite negative => cases negative <;> decide +kernel
  | nan => decide +kernel

theorem ofDecimal_representable (negative : Bool) (digits : Nat) (exponent : ℤ) :
    (ofDecimal negative digits exponent).Representable := by
  unfold ofDecimal
  dsimp only
  apply ite_representable (finite_zero_representable negative)
  apply ite_representable (infinite_representable negative)
  apply ite_representable (finite_zero_representable negative)
  exact ofRatio_representable negative _ _

theorem readMagnitude?_representable {negative : Bool} {cs : List Char} {x : Double}
    (h : readMagnitude? negative cs = some x) : x.Representable := by
  unfold readMagnitude? at h
  dsimp only at h
  split at h
  all_goals
    split at h
    · cases h
    · obtain ⟨e, -, rfl⟩ := Option.map_eq_some_iff.mp h
      exact ofDecimal_representable negative _ _

theorem read?_representable {cs : List Char} {x : Double} (h : Double.read? cs = some x) :
    x.Representable := by
  have hcases {a b negative : Bool} {body : List Char}
      (h : (if a then some (infinite negative) else if b then some nan
        else readMagnitude? negative body) = some x) : x.Representable := by
    cases a with
    | true =>
      cases h
      exact infinite_representable negative
    | false =>
      cases b with
      | true =>
        cases h
        exact nan_representable
      | false => exact readMagnitude?_representable h
  exact hcases h

theorem mem_write {x : Double} {c : Char} (hc : c ∈ (DecimalLayout.plain.write x).toList) :
    c.isDigit ∨ c ∈ ['.', '-', 'i', 'n', 'f', 'N', 'a'] := by
  cases x with
  | finite negative q =>
    unfold DecimalLayout.write at hc
    rw [String.toList_ofList, List.mem_append] at hc
    rcases hc with hsign | hdigit
    · cases negative with
      | true =>
        rw [if_pos rfl, List.mem_singleton] at hsign
        exact .inr (by simp [hsign])
      | false => cases hsign
    · rcases DecimalLayout.digit_or_point_of_mem_magnitude c hdigit with h | rfl
      · exact .inl h
      · exact .inr (by decide)
  | infinite negative =>
    have hname : (DecimalLayout.plain.write (.infinite negative)).toList.all
        (['.', '-', 'i', 'n', 'f', 'N', 'a'].contains ·) = true := by
      cases negative <;> decide
    exact .inr (List.contains_iff_mem.mp (List.all_eq_true.mp hname c hc))
  | nan =>
    have hname : (DecimalLayout.plain.write .nan).toList.all
        (['.', '-', 'i', 'n', 'f', 'N', 'a'].contains ·) = true := by decide
    exact .inr (List.contains_iff_mem.mp (List.all_eq_true.mp hname c hc))

end Double

end Assay

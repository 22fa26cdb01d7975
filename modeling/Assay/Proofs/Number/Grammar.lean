import Assay.Proofs.Number.Power
import Assay.Proofs.Number.Reading
import Assay.Proofs.Text.Category

namespace Assay

open Double (one bound nearest ofNat)

attribute [local irreducible] one bound

variable {cs pre post ds : List Char} {c : Char} {x : Double} {n k : Nat} {e : Int}
  {negative : Bool}

/-- A sign, or none. -/
def IsSign (cs : List Char) : Prop := cs = [] ∨ cs = ['-'] ∨ cs = ['+']

/-- Digits, at least one, and perhaps a sign before them. -/
def IsSignedInteger (cs : List Char) : Prop :=
  ∃ sign ds, IsSign sign ∧ AllDigits ds ∧ ds ≠ [] ∧ cs = sign ++ ds

/-- Digits with a point among them or at either end, or without a point, and perhaps a sign before
them. -/
def IsSignedDecimal (cs : List Char) : Prop :=
  ∃ sign whole point fraction, IsSign sign ∧ AllDigits whole ∧ (point = [] ∨ point = ['.']) ∧
    AllDigits fraction ∧ whole ++ fraction ≠ [] ∧ cs = sign ++ (whole ++ (point ++ fraction))

/-- The letter of a numeral that stands before its exponent. -/
structure IsExponentMark (pre : List Char) (c : Char) (post : List Char) : Prop where
  letter : c = 'e' ∨ c = 'E'
  significand : IsSignedDecimal pre
  exponent : IsSignedInteger post

/-- What numerals are made of, their exponent marks apart. -/
def isNumeralChar (c : Char) : Bool := c.isDigit || ['+', '-', '.'].contains c

theorem isNumeralChar_digit (h : c.isDigit) : isNumeralChar c := by
  rw [isNumeralChar, h, Bool.true_or]

theorem isNumeralChar_of_isAlpha (h : c.isAlpha) : isNumeralChar c = false := by
  have hdigit : c.isDigit = false := by
    rw [Text.isAlpha_iff] at h
    simp [Char.isDigit, UInt32.le_iff_toNat_le]
    omega
  have hmark : ['+', '-', '.'].contains c = false := by
    rw [Bool.eq_false_iff, ne_eq, List.contains_iff_mem]
    simp only [List.mem_cons, List.not_mem_nil, or_false]
    rintro (rfl | rfl | rfl) <;> exact absurd h (by decide)
  rw [isNumeralChar, hdigit, hmark]
  rfl

theorem IsSign.chars (h : IsSign cs) : ∀ c ∈ cs, isNumeralChar c := by
  rcases h with rfl | rfl | rfl
  · exact List.forall_mem_nil _
  · exact List.forall_mem_singleton.mpr rfl
  · exact List.forall_mem_singleton.mpr rfl

theorem AllDigits.chars (h : AllDigits cs) : ∀ c ∈ cs, isNumeralChar c :=
  fun c hc => isNumeralChar_digit (h c hc)

theorem IsSignedInteger.chars (h : IsSignedInteger cs) : ∀ c ∈ cs, isNumeralChar c := by
  obtain ⟨sign, ds, hsign, hds, -, rfl⟩ := h
  exact List.forall_mem_append.mpr ⟨hsign.chars, hds.chars⟩

theorem IsSignedDecimal.chars (h : IsSignedDecimal cs) : ∀ c ∈ cs, isNumeralChar c := by
  obtain ⟨sign, whole, point, fraction, hsign, hwhole, hpoint, hfraction, -, rfl⟩ := h
  have hpointChars : ∀ c ∈ point, isNumeralChar c := by
    rcases hpoint with rfl | rfl
    · exact List.forall_mem_nil _
    · exact List.forall_mem_singleton.mpr rfl
  simp only [List.forall_mem_append]
  exact ⟨hsign.chars, hwhole.chars, hpointChars, hfraction.chars⟩

/-- A character that stands once in a text stands there in one place. -/
theorem append_cons_unique {P : Char → Prop} {a b : List Char} {d : Char}
    (h : pre ++ c :: post = a ++ d :: b) (ha : ∀ x ∈ a, P x) (hb : ∀ x ∈ b, P x) (hc : ¬ P c) :
    pre = a ∧ c = d ∧ post = b := by
  rcases List.append_eq_append_iff.mp h with ⟨l, rfl, hl⟩ | ⟨l, rfl, hl⟩
  · cases l with
    | nil => simpa using hl
    | cons y l =>
      obtain ⟨rfl, -⟩ := List.cons.inj hl
      exact absurd (ha c (by simp)) hc
  · cases l with
    | nil => simpa [eq_comm] using hl
    | cons y l =>
      obtain ⟨rfl, rfl⟩ := List.cons.inj hl
      exact absurd (hb c (by simp)) hc

theorem allDigits_of_readNat? (h : readNat? cs = some n) : AllDigits cs ∧ cs ≠ [] := by
  unfold readNat? at h
  split at h
  · cases h
  · next hcs =>
    simp only [Bool.or_eq_true, Bool.not_eq_eq_eq_not, Bool.not_true, not_or,
      Bool.not_eq_false] at hcs
    exact ⟨List.all_eq_true.mp hcs.2, by simpa using hcs.1⟩

theorem isSignedInteger_of_readNat? {sign : List Char} (hsign : IsSign sign)
    (h : readNat? cs = some n) : IsSignedInteger (sign ++ cs) := by
  obtain ⟨hdigits, hne⟩ := allDigits_of_readNat? h
  exact ⟨sign, cs, hsign, hdigits, hne, rfl⟩

theorem exponent_of_readExponent? (h : readExponent? cs = some e) :
    cs = [] ∨ ∃ mark exponent, (mark = 'e' ∨ mark = 'E') ∧ IsSignedInteger exponent ∧
      cs = mark :: exponent := by
  cases cs with
  | nil => exact .inl rfl
  | cons mark cs =>
    right
    simp only [readExponent?] at h
    split at h
    · next hmark =>
      refine ⟨mark, cs, hmark, ?_, rfl⟩
      split at h
      · next r =>
        obtain ⟨_, hsome, -⟩ := Option.map_eq_some_iff.mp h
        obtain ⟨n, hn, -⟩ := Option.bind_eq_some_iff.mp hsome
        exact isSignedInteger_of_readNat? (.inr (.inl rfl)) hn
      · next r =>
        obtain ⟨n, hn, -⟩ := Option.map_eq_some_iff.mp h
        exact isSignedInteger_of_readNat? (.inr (.inr rfl)) hn
      · obtain ⟨n, hn, -⟩ := Option.map_eq_some_iff.mp h
        exact isSignedInteger_of_readNat? (.inl rfl) hn
    · cases h

theorem allDigits_takeWhile (cs : List Char) : AllDigits (cs.takeWhile Char.isDigit) :=
  fun _ => List.mem_takeWhile_imp

/-- What is read as a magnitude is a decimal with an exponent or without. -/
theorem parts_of_readMagnitude? (h : readMagnitude? negative cs = some x) {sign : List Char}
    (hsign : IsSign sign) :
    ∃ significand tail e, sign ++ cs = significand ++ tail ∧ IsSignedDecimal significand ∧
      readExponent? tail = some e := by
  have hcut := List.takeWhile_append_dropWhile (p := Char.isDigit) (l := cs)
  have hwhole := allDigits_takeWhile cs
  unfold readMagnitude? at h
  dsimp only at h
  generalize cs.takeWhile Char.isDigit = whole at h hcut hwhole
  generalize cs.dropWhile Char.isDigit = rest at h hcut
  rw [← hcut]
  split at h
  · next r =>
    have hrest := List.takeWhile_append_dropWhile (p := Char.isDigit) (l := r)
    have hfraction := allDigits_takeWhile r
    split at h
    · cases h
    · next hne =>
      obtain ⟨e, he, -⟩ := Option.map_eq_some_iff.mp h
      refine ⟨sign ++ (whole ++ (['.'] ++ r.takeWhile Char.isDigit)), _, e, ?_,
        ⟨sign, whole, ['.'], _, hsign, hwhole, .inr rfl, hfraction, ?_, rfl⟩, he⟩
      · conv_lhs => rw [← hrest]
        simp
      · simpa using hne
  · split at h
    · cases h
    · next hne =>
      obtain ⟨e, he, -⟩ := Option.map_eq_some_iff.mp h
      refine ⟨sign ++ (whole ++ ([] ++ [])), rest, e, by simp,
        ⟨sign, whole, [], [], hsign, hwhole, .inl rfl, List.forall_mem_nil _, ?_, rfl⟩, he⟩
      simpa using hne

theorem parts_of_read? (h : Double.read? cs = some x) (hx : x.isFinite) :
    ∃ significand tail e, cs = significand ++ tail ∧ IsSignedDecimal significand ∧
      readExponent? tail = some e := by
  -- Neither infinity nor what is not a number is finite, so the text was read digit by digit.
  have hbody {negative : Bool} {body sign : List Char} (hsign : IsSign sign)
      (h : (if String.ofList (body.map Char.toLower) == "inf" ||
          String.ofList (body.map Char.toLower) == "infinity" then some (.infinite negative)
        else if String.ofList (body.map Char.toLower) == "nan" then some .nan
        else readMagnitude? negative body) = some x) :
      ∃ significand tail e, sign ++ body = significand ++ tail ∧ IsSignedDecimal significand ∧
        readExponent? tail = some e := by
    split at h
    · cases h
      cases hx
    · split at h
      · cases h
        cases hx
      · exact parts_of_readMagnitude? h hsign
  unfold Double.read? at h
  dsimp only at h
  split at h
  · exact hbody (.inr (.inl rfl)) h
  · exact hbody (.inr (.inr rfl)) h
  · exact hbody (.inl rfl) h

/-- In the numeral of a finite number a character that is no digit, no sign and no point is the
exponent mark. -/
theorem isExponentMark_of_read? (h : Double.read? (pre ++ c :: post) = some x) (hx : x.isFinite)
    (hc : isNumeralChar c = false) : IsExponentMark pre c post := by
  obtain ⟨significand, tail, e, heq, hsignificand, htail⟩ := parts_of_read? h hx
  have hnot : ¬ isNumeralChar c := by rw [hc]; exact Bool.false_ne_true
  rcases exponent_of_readExponent? htail with rfl | ⟨mark, exponent, hmark, hexponent, rfl⟩
  · rw [List.append_nil] at heq
    rw [← heq] at hsignificand
    exact absurd (hsignificand.chars c (by simp)) hnot
  · obtain ⟨rfl, rfl, rfl⟩ := append_cons_unique heq hsignificand.chars hexponent.chars hnot
    exact ⟨hmark, hsignificand, hexponent⟩

theorem read?_nil : Double.read? [] = none := rfl

namespace Double

theorem one_le_nearest (h : k ≠ 0) : one ≤ nearest (k * one) 1 := by
  have hk : 1 * one ≤ k * one := Nat.mul_le_mul_right one (by omega)
  have hmono := nearest_mono hk 1
  rwa [nearest_whole (by decide), Nat.one_mul] at hmono

theorem ofDecimal_integer (negative : Bool) (h : k ≠ 0) :
    ofDecimal negative k 0 = infinite negative ∨ ofDecimal negative k 0 = ofRatio negative k 1 := by
  have hplaces : 0 < (Nat.toDigits 10 k).length := Nat.length_toDigits_pos
  unfold ofDecimal
  rw [if_neg h, if_neg h]
  split
  · exact .inl rfl
  · right
    rw [if_neg (by omega)]
    simp

theorem ofQuanta_negative {q : Nat} (h : 0 < q) :
    (ofQuanta true q).isFinite = false ∨ (ofQuanta true q).less zero := by
  by_cases hq : q < bound
  · right
    rw [ofQuanta, if_pos hq, less_iff (u := -(q : Int)) (v := 0) rfl rfl]
    omega
  · left
    rw [ofQuanta, if_neg hq]
    rfl

/-- The negative of a whole number other than zero is less than zero, or too large to be finite. -/
theorem ofDecimal_negative (h : k ≠ 0) :
    (ofDecimal true k 0).isFinite = false ∨ (ofDecimal true k 0).less zero := by
  rcases ofDecimal_integer true h with hinfinite | hratio
  · rw [hinfinite]
    exact .inl rfl
  · rw [hratio]
    exact ofQuanta_negative (Nat.lt_of_lt_of_le one_pos (one_le_nearest h))

theorem read?_negative (hds : AllDigits ds) (hne : ds ≠ []) :
    read? ('-' :: ds) = some (ofDecimal true (digitsFrom 0 ds) 0) := by
  have hwhole := readMagnitude?_whole true hds hne
  obtain ⟨c, cs, rfl⟩ := List.exists_cons_of_ne_nil hne
  exact (read?_digit (hds c List.mem_cons_self) true cs).trans hwhole

theorem read?_positive (hds : AllDigits ds) (hne : ds ≠ []) {sign : List Char}
    (hsign : sign = [] ∨ sign = ['+']) :
    read? (sign ++ ds) = some (ofDecimal false (digitsFrom 0 ds) 0) := by
  have hwhole := readMagnitude?_whole false hds hne
  obtain ⟨c, cs, rfl⟩ := List.exists_cons_of_ne_nil hne
  have hread := (read?_digit (hds c List.mem_cons_self) false cs).trans hwhole
  rcases hsign with rfl | rfl
  · exact hread
  · have hplus : read? ('+' :: c :: cs) = read? (c :: cs) := by
      have hc := hds c List.mem_cons_self
      conv_rhs => unfold Double.read?
      dsimp only
      split
      next heq => exact absurd (List.cons.inj heq).1 (ne_of_isDigit hc rfl)
      next heq => exact absurd (List.cons.inj heq).1 (ne_of_isDigit hc rfl)
      next => rfl
    exact hplus.trans hread

/-- A product of whole numbers that is less than `2 ^ 53` is exact. -/
theorem mul_ofNat (h : n * k < 2 ^ 53) (hn : n < 2 ^ 53) (hk : k < 2 ^ 53) :
    (ofNat n).mul (ofNat k) = finite false (n * k * one) := by
  have hexact : nearest (n * one * (k * one)) one = n * k * one := by
    have hpow (e : Nat) : nearest (n * 2 ^ e * (k * 2 ^ e)) (2 ^ e) = n * k * 2 ^ e := by
      rw [show n * 2 ^ e * (k * 2 ^ e) = n * k * 2 ^ e * 2 ^ e by ring]
      exact nearest_exact (Nat.pow_pos (by decide)) h.le e
    rw [one_eq]
    exact hpow _
  have hlt : n * k * one < bound :=
    lt_bound_of_le_pow (i := 53) (Nat.mul_le_mul_right one h.le) (by decide)
  rw [ofNat_exact hn.le, ofNat_exact hk.le]
  change ofQuanta false (nearest (n * one * (k * one)) one) = _
  rw [hexact, ofQuanta, if_pos hlt]

end Double

end Assay

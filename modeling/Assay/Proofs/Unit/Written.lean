import Assay.Context
import Assay.Proofs.Context.Placeholders
import Assay.Proofs.Number.Reading
import Assay.Unit.Comparison
import Assay.Unit.Duration

namespace Assay

open Double (one bound excess nearest)

attribute [local irreducible] one bound

namespace Text

variable {cs : List Char}

theorem trimLeftChars_eq_self (h : ∀ c ∈ cs, isBlank c = false) : trimLeftChars cs = cs := by
  cases cs with
  | nil => rfl
  | cons c r =>
    have hc := h c List.mem_cons_self
    simp [trimLeftChars, hc]

theorem trimChars_eq_self (h : ∀ c ∈ cs, isBlank c = false) : trimChars cs = cs := by
  have hreverse : ∀ c ∈ cs.reverse, isBlank c = false := fun c hc => h c (List.mem_reverse.mp hc)
  have hright := congrArg List.reverse (trimLeftChars_eq_self hreverse)
  rw [List.reverse_reverse] at hright
  rw [trimChars, trimLeftChars_eq_self h]
  exact hright

theorem isBlank_of_all (h : cs.all (!isBlank ·) = true) : ∀ c ∈ cs, isBlank c = false := by
  intro c hc
  simpa using List.all_eq_true.mp h c hc

theorem isBlank_digit {c : Char} (h : c.isDigit) : isBlank c = false := by
  simp only [Char.isDigit, Bool.and_eq_true, decide_eq_true_eq, ge_iff_le,
    UInt32.le_iff_toNat_le] at h
  have hlow : 48 ≤ c.toNat := h.1
  have hhigh : c.toNat ≤ 57 := h.2
  simp [isBlank]
  omega

end Text

theorem Context.fill_eq_self (ctx : Context) {text : String} (h : '\x7b' ∉ text.toList) :
    ctx.fill text = text := by
  rw [← String.toList_inj]
  simp only [Context.fill, Template.fill, String.toList_ofList]
  apply Template.fillChars_eq_self
  intro pre name post _ _ heq
  apply h
  rw [heq]
  exact List.mem_append_right pre (List.mem_append_left post List.mem_cons_self)

namespace Double

variable {x : Double}

theorem isBlank_of_mem_write {c : Char} (hc : c ∈ (DecimalLayout.plain.write x).toList) :
    Text.isBlank c = false := by
  rcases mem_write hc with h | h
  · exact Text.isBlank_digit h
  · exact Text.isBlank_of_all (by decide) c h

theorem not_mem_write {c : Char} (hdigit : c.isDigit = false)
    (h : c ∉ ['.', '-', 'i', 'n', 'f', 'N', 'a']) :
    c ∉ (DecimalLayout.plain.write x).toList := by
  intro hc
  rcases mem_write hc with h' | h'
  · rw [hdigit] at h'
    cases h'
  · exact h h'

variable {num den n k : Nat}

theorem nearest_le (h : num / den < 2 ^ k) (hk : 53 ≤ k) : nearest num den ≤ 2 ^ k := by
  have hunits := units_le (lt_of_excess (num / den))
  have hexcess : 53 + excess (num / den) ≤ k := by
    rcases Nat.eq_zero_or_pos (excess (num / den)) with h0 | h0
    · omega
    · have hlt := (Nat.pow_lt_pow_iff_right (by decide)).mp ((le_of_excess h0).trans_lt h)
      omega
  calc nearest num den
      = units num (den * 2 ^ excess (num / den)) * 2 ^ excess (num / den) := nearest_eq_units _ _
    _ ≤ 2 ^ 53 * 2 ^ excess (num / den) := Nat.mul_le_mul_right _ hunits
    _ = 2 ^ (53 + excess (num / den)) := (Nat.pow_add 2 53 _).symm
    _ ≤ 2 ^ k := Nat.pow_le_pow_right (by decide) hexcess

theorem ofNat_finite (h : n < 2 ^ 64) :
    ofNat n = finite false (nearest (n * one) 1) ∧ nearest (n * one) 1 < bound := by
  have hlt : nearest (n * one) 1 < bound := by
    have hpow {j l : Nat} (hj : 53 ≤ j + 64) (hl : j + 64 < l) :
        nearest (n * 2 ^ j) 1 < 2 ^ l := by
      have hnum : n * 2 ^ j / 1 < 2 ^ (j + 64) := by
        rw [Nat.div_one, Nat.pow_add, Nat.mul_comm]
        exact Nat.mul_lt_mul_of_pos_left h (Nat.pow_pos (by decide))
      exact (nearest_le hnum hj).trans_lt (Nat.pow_lt_pow_right (by decide) hl)
    rw [bound_eq, one_eq]
    exact hpow (by decide) (by decide)
  refine ⟨?_, hlt⟩
  unfold ofNat ofRatio ofQuanta
  rw [if_pos hlt]

theorem nearest_whole (h : n ≤ 2 ^ 53) : nearest (n * one) 1 = n * one := by
  have hexact (e : Nat) : nearest (n * 2 ^ e) 1 = n * 2 ^ e := by
    have h1 := nearest_exact Nat.one_pos h e
    rwa [Nat.mul_one] at h1
  rw [one_eq]
  exact hexact _

theorem ofDecimal_whole (h : n < 2 ^ 64) : ofDecimal false n 0 = ofNat n := by
  have hplaces : (Nat.toDigits 10 n).length ≤ 20 := by
    rw [Nat.length_toDigits_le_iff (by decide) (by decide)]
    exact h.trans (by decide)
  rcases Nat.eq_zero_or_pos n with rfl | h0
  · have hzero := nearest_whole (Nat.zero_le (2 ^ 53))
    rw [(ofNat_finite (by decide)).1, hzero, Nat.zero_mul]
    rfl
  · have hne : n ≠ 0 := by omega
    unfold ofDecimal ofNat
    rw [if_neg hne, if_neg hne, if_neg (by omega), if_neg (by omega)]
    simp

/-- The digits of a whole number are read as the double nearest to it. -/
theorem read?_toDigits (h : n < 2 ^ 64) : read? (Nat.toDigits 10 n) = some (ofNat n) := by
  have hdigits := allDigits_toDigits n
  have hne := List.ne_nil_of_length_pos (Nat.length_toDigits_pos (b := 10) (n := n))
  have hwhole := readMagnitude?_whole false hdigits hne
  rw [digitsFrom_toDigits, ofDecimal_whole h] at hwhole
  generalize Nat.toDigits 10 n = ds at hdigits hne hwhole
  obtain ⟨c, cs, rfl⟩ := List.exists_cons_of_ne_nil hne
  exact (read?_digit (hdigits c List.mem_cons_self) false cs).trans hwhole

theorem mul_ofNat_one {q : Nat} (h : (finite false q).Representable) :
    (finite false q).mul (ofNat 1) = finite false q := by
  have hone : nearest (1 * one) 1 = one := by rw [nearest_whole (by decide), Nat.one_mul]
  have hexact : nearest (q * one) one = q := by
    apply nearest_of_dvd one_pos
    obtain ⟨m, hm, -, -⟩ := exists_significand h.1
    exact ⟨m, by rw [Nat.mul_comm]; exact hm⟩
  rw [(ofNat_finite (by decide)).1, hone]
  change ofQuanta false (nearest (q * one) one) = _
  rw [hexact, ofQuanta, if_pos h.2]

theorem not_less_zero (q : Nat) : (finite false q).less zero = false := by
  have hcompare : compare (q : Int) 0 ≠ .lt := by
    rw [Ne, compare_lt_iff_lt]
    omega
  change (some (compare (q : Int) 0) == some .lt) = false
  simpa using hcompare

theorem toNatClamped_mul_one (limit n : Nat) :
    (finite false (n * one)).toNatClamped limit = min limit n := by
  have hdiv : (2 * (n * one) + one) / (2 * one) = n := by
    have hone := one_pos
    generalize one = u at hone
    rw [← Nat.mul_assoc, Nat.mul_comm 2 n, Nat.mul_assoc, Nat.add_comm,
      Nat.add_mul_div_right _ _ (by omega), Nat.div_eq_of_lt (by omega), Nat.zero_add]
  change min limit ((2 * (n * one) + one) / (2 * one)) = min limit n
  rw [hdiv]

theorem toNatClamped_whole {limit : Nat} (h : n ≤ limit) :
    (finite false (n * one)).toNatClamped limit = n := by
  rw [toNatClamped_mul_one, Nat.min_eq_right h]

end Double

namespace Comparison

variable {w : List Char}

theorem splitRelation_symbol (r : Relation) (h : '=' ∉ w) :
    splitRelation (r.symbol.toList ++ w) = (r, w) := by
  cases r with
  | equal => rfl
  | unequal => rfl
  | atLeast => rfl
  | atMost => rfl
  | greater =>
    change splitRelation ('>' :: w) = _
    unfold splitRelation
    split <;> simp_all
  | less =>
    change splitRelation ('<' :: w) = _
    unfold splitRelation
    split <;> simp_all

theorem toList_text (c : Comparison) :
    c.text.toList = c.relation.symbol.toList ++ (DecimalLayout.plain.write c.bound).toList :=
  String.toList_append

theorem isBlank_of_mem_text {c : Comparison} :
    ∀ d ∈ c.text.toList, Text.isBlank d = false := by
  intro d hd
  rw [toList_text, List.mem_append] at hd
  rcases hd with h | h
  · have hsymbol : c.relation.symbol.toList.all (!Text.isBlank ·) = true := by
      cases c.relation <;> decide
    exact Text.isBlank_of_all hsymbol d h
  · exact Double.isBlank_of_mem_write h

theorem parse?_text {c : Comparison} (h : c.bound.Representable) : parse? c.text = some c := by
  have hsplit := splitRelation_symbol c.relation
    (Double.not_mem_write (x := c.bound) (c := '=') rfl (by decide))
  unfold parse?
  rw [Text.trimChars_eq_self isBlank_of_mem_text, toList_text, hsplit]
  dsimp only
  rw [Text.trimChars_eq_self fun _ => Double.isBlank_of_mem_write, Double.read?_write h]
  rfl

theorem fill_text (ctx : Context) (c : Comparison) : ctx.fill c.text = c.text := by
  apply ctx.fill_eq_self
  rw [toList_text, List.mem_append, not_or]
  constructor
  · cases c.relation <;> decide
  · exact Double.not_mem_write rfl (by decide)

end Comparison

namespace Duration

variable {n : Nat} {d : Duration} {text : String}

theorem toList_text (d : Duration) : d.text.toList = Nat.toDigits 10 d.millis ++ ['m', 's'] := by
  unfold text
  rw [String.toList_append, Nat.toString_eq_ofList_toDigits, String.toList_ofList]
  rfl

theorem isBlank_of_mem_text : ∀ c ∈ d.text.toList, Text.isBlank c = false := by
  intro c hc
  rw [toList_text, List.mem_append] at hc
  rcases hc with h | h
  · exact Text.isBlank_digit (allDigits_toDigits _ c h)
  · exact Text.isBlank_of_all (by decide) c h

theorem fill_text (ctx : Context) (d : Duration) : ctx.fill d.text = d.text := by
  apply ctx.fill_eq_self
  rw [toList_text, List.mem_append, not_or]
  constructor
  · intro h
    exact absurd (allDigits_toDigits _ _ h) (by decide)
  · decide

theorem splitUnit_millis (cs : List Char) : splitUnit (cs ++ ['m', 's']) = (cs, 1) := by
  have hsuffix : ['m', 's'].isSuffixOf (cs ++ ['m', 's']) = true :=
    List.isSuffixOf_iff_suffix.mpr (List.suffix_append cs _)
  unfold splitUnit Text.dropSuffix
  rw [if_pos hsuffix]
  simp

theorem le_limit_iff : n ≤ limit ↔ n < 2 ^ 64 := by
  unfold limit
  rw [Nat.pow_eq]
  omega

/-- Milliseconds as they come back from their text: the nearest double, made whole. -/
def reread (d : Duration) : Duration := ofMillis (.ofNat d.millis)

theorem reread_eq_self (h : d.millis ≤ 2 ^ 53) : d.reread = d := by
  have hlt : d.millis < 2 ^ 64 := h.trans_lt (by decide)
  unfold reread ofMillis
  rw [(Double.ofNat_finite hlt).1, Double.nearest_whole h,
    Double.toNatClamped_whole (le_limit_iff.mpr hlt)]

theorem parse?_text (h : d.millis ≤ limit) : parse? d.text = some d.reread := by
  have hlt : d.millis < 2 ^ 64 := le_limit_iff.mp h
  have hdigits := allDigits_toDigits d.millis
  have hread : Double.read? (Nat.toDigits 10 d.millis) = some (.ofNat d.millis) :=
    Double.read?_toDigits hlt
  have htrim : Text.trimChars (Nat.toDigits 10 d.millis) = Nat.toDigits 10 d.millis :=
    Text.trimChars_eq_self fun c hc => Text.isBlank_digit (hdigits c hc)
  obtain ⟨q, hq⟩ : ∃ q, Double.ofNat d.millis = .finite false q :=
    ⟨_, (Double.ofNat_finite hlt).1⟩
  have hrepresentable := Double.ofNat_representable d.millis
  unfold reread
  rw [hq] at hread hrepresentable ⊢
  have hpos : (Double.finite false q).less .zero = false := Double.not_less_zero q
  unfold parse?
  rw [Text.trimChars_eq_self isBlank_of_mem_text, toList_text, splitUnit_millis]
  dsimp only
  rw [htrim, hread, Option.bind_eq_bind, Option.bind_some, hpos,
    Double.mul_ofNat_one hrepresentable]
  exact if_pos ⟨rfl, Bool.false_ne_true⟩

theorem decode_string (o : Origin) (text : String) :
    decode o (.string text) = ofScalar (.text text) := by
  have hscalar : LooseScalar.decode o (.string text) = .ok (.text text) := rfl
  unfold decode
  rw [hscalar]
  generalize ofScalar = read
  rfl

theorem decode_string_of_some (h : parse? text = some d) (o : Origin) :
    decode o (.string text) = .ok d := by
  rw [decode_string, ofScalar, h]

theorem decode_string_of_none (h : parse? text = none) (o : Origin) :
    decode o (.string text) = .error (.duration text) := by
  rw [decode_string, ofScalar, h]

theorem decode_toValue (o : Origin) (h : d.millis ≤ limit) :
    decode o (.ofValue d.toValue) = .ok d.reread := decode_string_of_some (parse?_text h) o

end Duration

end Assay

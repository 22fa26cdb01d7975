import Assay.Proofs.Configuration
import Assay.Proofs.Expression.Numeral
import Assay.Proofs.Number.Whole
import Assay.Proofs.Suite.Resolution
import Assay.Proofs.Unit.Spelling

namespace Assay

open Double (bound excess nearest one)
open Text (Blanks)

attribute [local irreducible] one bound

variable {n : Nat} {cs : List Char} {ctx : Context} {o : Origin}

theorem eq_zero_of_toDigits (h : Nat.toDigits 10 n = '0' :: cs) : n = 0 := by
  induction n using Nat.strong_induction_on generalizing cs with
  | _ n ih =>
    by_cases hn : n < 10
    · rw [Nat.toDigits_of_lt_base hn] at h
      obtain ⟨hdigit, -⟩ := List.cons.inj h
      by_contra h0
      have hne : ∀ d < 10, d ≠ 0 → Nat.digitChar d ≠ '0' := by decide
      exact hne n hn h0 hdigit
    · obtain ⟨c, ds, heq, -⟩ := toDigits_eq_cons (n / 10)
      rw [Nat.toDigits_of_base_le (by decide) (by omega), heq, List.cons_append] at h
      obtain ⟨rfl, -⟩ := List.cons.inj h
      have := ih (n / 10) (by omega) heq
      omega

namespace Scalar

theorem isPadded_toDigits (n : Nat) : isPadded (Nat.toDigits 10 n) = false := by
  obtain ⟨c, cs, heq, hc⟩ := toDigits_eq_cons n
  rw [heq]
  unfold isPadded
  split
  next h => exact absurd (List.cons.inj h).1 (Double.ne_of_isDigit hc rfl)
  next h => exact absurd (List.cons.inj h).1 (Double.ne_of_isDigit hc rfl)
  next =>
    dsimp only
    split
    next r h =>
      -- The only digits that begin with a zero are those of zero, and nothing follows it.
      have hzero := eq_zero_of_toDigits (heq.trans h)
      rw [hzero, h] at heq
      obtain ⟨-, rfl⟩ := List.cons.inj heq
      rfl
    next => rfl

theorem based?_toDigits (n : Nat) : based? (Nat.toDigits 10 n) = none := by
  have hdigits := allDigits_toDigits n
  generalize Nat.toDigits 10 n = cs at hdigits
  have hsecond {a b : Char} {r : List Char} (h : b.isDigit = false) : cs ≠ a :: b :: r := by
    rintro rfl
    exact Double.ne_of_isDigit (hdigits b (by simp)) h rfl
  unfold based?
  split
  next => exact absurd rfl (hsecond rfl)
  next => exact absurd rfl (hsecond rfl)
  next => exact absurd rfl (hsecond rfl)
  next => rfl

theorem nat?_toDigits (n : Nat) : nat? (Nat.toDigits 10 n) = some n := by
  have hbased := based?_toDigits n
  have hpadded := isPadded_toDigits n
  have hnat := readNat?_toDigits n
  obtain ⟨c, cs, heq, hc⟩ := toDigits_eq_cons n
  unfold nat?
  rw [heq] at hbased hpadded hnat ⊢
  split
  next h => exact absurd (List.cons.inj h).1 (Double.ne_of_isDigit hc rfl)
  next => simp [hbased, hpadded, hnat]

theorem toString_ne {w : String} (h : w.toList.head?.all fun c => !c.isDigit) :
    (toString n == w) = false := by
  obtain ⟨c, cs, heq, hc⟩ := toDigits_eq_cons n
  rw [beq_eq_false_iff_ne]
  rintro rfl
  rw [Nat.toString_eq_ofList_toDigits, String.toList_ofList, heq] at h
  simp [hc] at h

theorem isNull_toString (n : Nat) : isNull (toString n) = false := by
  unfold isNull
  rw [toString_ne (w := "") rfl, toString_ne (w := "~") rfl, toString_ne (w := "null") rfl,
    toString_ne (w := "Null") rfl, toString_ne (w := "NULL") rfl]
  rfl

theorem bool?_toString (n : Nat) : bool? (toString n) = none := by
  unfold bool?
  rw [toString_ne (w := "true") rfl, toString_ne (w := "True") rfl, toString_ne (w := "TRUE") rfl,
    toString_ne (w := "false") rfl, toString_ne (w := "False") rfl,
    toString_ne (w := "FALSE") rfl]
  rfl

theorem ofPlain_toString (h : n < 2 ^ 64) : ofPlain (toString n) = .int n := by
  have hint : int? (toString n).toList = some (n : Int) := by
    rw [Nat.toString_eq_ofList_toDigits, String.toList_ofList, int?, nat?_toDigits]
  have hwithin : decide (-(Nat.pow 2 127 : Int) ≤ n ∧ (n : Int) < Nat.pow 2 128) = true := by
    rw [Nat.pow_eq, Nat.pow_eq, decide_eq_true_eq]
    omega
  unfold ofPlain
  dsimp only
  rw [isNull_toString, bool?_toString, hint, Option.filter_some, if_pos hwithin]
  rfl

end Scalar

namespace Duration

variable {d e : Duration}

theorem reread_millis (h : d.millis ≤ limit) :
    d.reread.millis = min limit (nearest d.millis 1) := by
  have hscale : nearest (d.millis * one) 1 = nearest d.millis 1 * one := by
    rw [Double.one_eq]
    exact Double.nearest_scale _ _
  unfold reread ofMillis
  rw [(Double.ofNat_finite (le_limit_iff.mp h)).1, hscale, Double.toNatClamped_mul_one]

theorem nearest_limit : nearest limit 1 = 2 ^ 64 := by decide +kernel

theorem reread_le_limit (h : d.millis ≤ limit) : d.reread.millis ≤ limit := by
  rw [reread_millis h]
  exact Nat.min_le_left _ _

/-- A duration comes back as it was if 53 binary places hold it, and so does the longest one. -/
theorem reread_eq_self_iff (h : d.millis ≤ limit) :
    d.reread = d ↔ d.millis = limit ∨ ∃ s e, s < 2 ^ 53 ∧ d.millis = s * 2 ^ e := by
  have hmillis := reread_millis h
  constructor
  · intro heq
    rw [heq] at hmillis
    rcases Nat.le_total limit (nearest d.millis 1) with hle | hle
    · rw [Nat.min_eq_left hle] at hmillis
      exact .inl hmillis
    · rw [Nat.min_eq_right hle] at hmillis
      obtain ⟨s, hs, hlt, -⟩ := Double.exists_significand hmillis.symm
      exact .inr ⟨s, _, hlt, hs⟩
  · intro hexact
    have hreread : d.reread.millis = d.millis := by
      rw [hmillis]
      rcases hexact with hlimit | ⟨s, e, hs, heq⟩
      · rw [hlimit, nearest_limit]
        decide
      · have hnearest := Double.nearest_exact Nat.one_pos hs.le e
        rw [Nat.mul_one, ← heq] at hnearest
        rw [hnearest, Nat.min_eq_right h]
    exact congrArg Duration.mk hreread

theorem reread_reread (h : d.millis ≤ limit) : d.reread.reread = d.reread := by
  rw [reread_eq_self_iff (reread_le_limit h), reread_millis h]
  rcases Nat.le_total limit (nearest d.millis 1) with hle | hle
  · exact .inl (Nat.min_eq_left hle)
  · obtain ⟨s, hs, hlt, -⟩ := Double.exists_significand (Double.nearest_idem d.millis 1)
    rw [Nat.min_eq_right hle]
    exact .inr ⟨s, _, hlt, hs⟩

theorem reread_mono (h : d.millis ≤ e.millis) (he : e.millis ≤ limit) :
    d.reread.millis ≤ e.reread.millis := by
  have hnearest := Double.nearest_mono h 1
  rw [reread_millis (h.trans he), reread_millis he]
  omega

/-- A duration comes back as one that is about a second longer or shorter at most. -/
theorem reread_close (h : d.millis ≤ limit) :
    d.reread.millis ≤ d.millis + 1024 ∧ d.millis ≤ d.reread.millis + 1024 := by
  have hexcess : excess d.millis ≤ 11 := by
    by_contra hlt
    have hle := Double.le_of_excess (n := d.millis) (by omega)
    have hpow : 2 ^ 64 ≤ 2 ^ (52 + excess d.millis) := Nat.pow_le_pow_right (by decide) (by omega)
    exact absurd (hpow.trans hle) (Nat.not_le.mpr (le_limit_iff.mp h))
  have hpow : 2 ^ excess d.millis ≤ 2 ^ 11 := Nat.pow_le_pow_right (by decide) hexcess
  have hclose := Double.nearest_close d.millis
  rw [reread_millis h]
  omega

/-- No blanks. -/
def noBlanks : Blanks := ⟨[], List.forall_mem_nil _⟩

theorem toString_eq_spelling (n : Nat) :
    toString n = spelling noBlanks (digits false 0 n) noBlanks .unmarked noBlanks := by
  rw [Nat.toString_eq_ofList_toDigits]
  simp [spelling, digits, noBlanks, TimeUnit.mark]

theorem text_eq_spelling (d : Duration) :
    d.text = spelling noBlanks (digits false 0 d.millis) noBlanks .millis noBlanks := by
  rw [← String.toList_inj, toList_text]
  simp [spelling, digits, noBlanks, TimeUnit.mark]

theorem parse?_toString (h : d.millis ≤ limit) : parse? (toString d.millis) = some d.reread := by
  have htext := parse?_text h
  rw [text_eq_spelling, parse?_of_spelled (spelled_digits _ _ _ _)] at htext
  rw [toString_eq_spelling, parse?_of_spelled (spelled_digits _ _ _ _)]
  exact htext

theorem decode_int (o : Origin) (n : Nat) : decode o (.number (.int n)) = .ok ⟨n⟩ := by
  have hscalar : LooseScalar.decode o (.number (.int n)) = .ok (.int n) := by
    rw [LooseScalar.decode, LooseScalar.ofInt, if_pos (Int.natCast_nonneg n), Int.toNat_natCast]
  rw [decode, hscalar]
  rfl

theorem decode_plain (o : Origin) (h : n < 2 ^ 64) : decode o (.plain (toString n)) = .ok ⟨n⟩ := by
  have hwithin : -(Nat.pow 2 63 : Int) ≤ n ∧ (n : Int) < Nat.pow 2 64 := by
    rw [Nat.pow_eq, Nat.pow_eq]
    omega
  have hscalar : LooseScalar.decode o (.plain (toString n)) = .ok (.int n) := by
    rw [LooseScalar.decode, Scalar.ofPlain_toString h, LooseScalar.ofScalar, if_pos hwithin,
      LooseScalar.ofInt, if_pos (Int.natCast_nonneg n), Int.toNat_natCast]
  rw [decode, hscalar]
  rfl

/-- A duration comes back from its text, with or without the unit, as what 53 binary places hold of
it, and from its number as it is. So do the durations of a step that is resolved, of a retry policy
and of the settings. -/
theorem serialized_reread (o : Origin) :
    (∀ d : Duration, d.millis < 2 ^ 64 →
      decode o (.ofValue d.toValue) = .ok d.reread ∧
      decode o (.string (toString d.millis)) = .ok d.reread ∧
      decode o (.number (.int d.millis)) = .ok d ∧
      decode o (.plain (toString d.millis)) = .ok d ∧
      (d.reread = d ↔ d.millis = limit ∨ ∃ s e, s < 2 ^ 53 ∧ d.millis = s * 2 ^ e) ∧
      d.reread.reread = d.reread ∧
      d.reread.millis ≤ d.millis + 1024 ∧ d.millis ≤ d.reread.millis + 1024) ∧
    (∀ d e : Duration, d.millis ≤ e.millis → e.millis < 2 ^ 64 →
      d.reread.millis ≤ e.reread.millis) ∧
    (∀ (ctx : Context) (a : Action), a.Loaded →
      ∃ b, a.resolve ctx = .ok b ∧ b.timeout = a.timeout.map reread) ∧
    (∀ p : RetryPolicy, p.Loaded → RetryPolicy.decode o (.ofValue p.toValue) = .ok p.reread) ∧
    ∀ c : Configuration, c.Loaded →
      Configuration.decode o (.ofValue (.object (c.toFields Configuration.presentRetry))) =
        .ok
          { c with
            defaults := c.defaults.reread
            retry := c.retry.map fun p => { p with delay := p.delay.reread }
            vars := Entries.sorted c.vars } := by
  refine ⟨fun d hlt => ?_, fun d e h he => reread_mono h (le_limit_iff.mpr he),
    fun ctx a h => Action.resolve_timeout ctx h, fun p h => RetryPolicy.decode_toValue h,
    fun c h => ?_⟩
  · have h := le_limit_iff.mpr hlt
    have hclose := reread_close h
    exact ⟨decode_toValue o h, decode_string_of_some (parse?_toString h) o, decode_int o d.millis,
      decode_plain o hlt, reread_eq_self_iff h, reread_reread h, hclose.1, hclose.2⟩
  · exact Configuration.decode_toFields nofun
      (fun p hp => RetryPolicy.decode_presentRetry (h.retry p hp)) h

theorem reread_odd : reread ⟨2 ^ 53 + 1⟩ = ⟨2 ^ 53⟩ := by
  have hmillis : (reread ⟨2 ^ 53 + 1⟩).millis = 2 ^ 53 := by
    have hnearest : nearest (2 ^ 53 + 1) 1 = 2 ^ 53 := by decide +kernel
    rw [reread_millis (by decide), hnearest]
    decide
  exact congrArg Duration.mk hmillis

/-- A request with a time-out that 53 binary places do not hold. -/
def oddRequest : RequestStep := ⟨"GET", some "/", none, [], none, some ⟨2 ^ 53 + 1⟩⟩

/-- Settings with such a time-out, and such a delay between attempts. -/
def oddSettings : Configuration :=
  { Configuration.usual with
    defaults := ⟨"http://localhost:8080", none, some ⟨2 ^ 53 + 1⟩⟩
    retry := some ⟨3, ⟨2 ^ 53 + 1⟩, none, none⟩ }

theorem oddRequest_loaded : (Action.request oddRequest).Loaded :=
  ⟨.object List.nodup_nil (List.forall_mem_nil _), nofun,
    fun _ h => Option.some.inj h ▸ (by decide : 2 ^ 53 + 1 ≤ limit)⟩

theorem oddSettings_loaded : oddSettings.Loaded := by
  have hle : 2 ^ 53 + 1 ≤ limit := by decide
  constructor
  · exact ⟨fun t ht => Option.some.inj ht ▸ hle⟩
  · exact fun p hp => Option.some.inj hp ▸ ⟨by decide, hle⟩
  · exact nofun
  · exact .object List.nodup_nil (List.forall_mem_nil _)

theorem serialized_reread_odd :
    decode .jsonText (.ofValue (toValue ⟨2 ^ 53 + 1⟩)) = .ok ⟨2 ^ 53⟩ ∧
    decode .jsonText (.string (toString (2 ^ 53 + 1))) = .ok ⟨2 ^ 53⟩ ∧
    decode .jsonText (.number (.int (2 ^ 53 + 1 : Nat))) = .ok ⟨2 ^ 53 + 1⟩ ∧
    (∃ b, (Action.request oddRequest).resolve ⟨[], [], []⟩ = .ok b ∧
      b.timeout = some ⟨2 ^ 53⟩) ∧
    RetryPolicy.decode .jsonText (.ofValue (RetryPolicy.toValue ⟨3, ⟨2 ^ 53 + 1⟩, none, none⟩)) =
      .ok ⟨3, ⟨2 ^ 53⟩, none, none⟩ ∧
    ((Configuration.decode .jsonText
      (.ofValue (.object (oddSettings.toFields Configuration.presentRetry)))).map
        fun c => (c.defaults.timeout, c.retry)) =
      .ok (some ⟨2 ^ 53⟩, some ⟨3, ⟨2 ^ 53⟩, none, none⟩) := by
  obtain ⟨hdurations, -, hactions, hpolicies, hsettings⟩ := serialized_reread .jsonText
  obtain ⟨htext, hdigits, hnumber, -⟩ := hdurations ⟨2 ^ 53 + 1⟩ (by decide)
  have haction := hactions ⟨[], [], []⟩ _ oddRequest_loaded
  have hpolicy := hpolicies ⟨3, ⟨2 ^ 53 + 1⟩, none, none⟩ ⟨by decide, by decide⟩
  have hsettings := hsettings oddSettings oddSettings_loaded
  rw [reread_odd] at htext hdigits
  refine ⟨htext, hdigits, hnumber, ?_, ?_, ?_⟩
  · rw [← reread_odd]
    exact haction
  · rw [hpolicy, RetryPolicy.reread, reread_odd]
    rfl
  · rw [hsettings, Except.map, ← reread_odd]
    rfl

/-- 9007199254740993 milliseconds come back as 9007199254740992. -/
theorem odd_changed :
    ¬ ∀ n < 2 ^ 64, ∀ o, decode o (.ofValue (toValue ⟨n⟩)) = .ok ⟨n⟩ ∧
      decode o (.number (.int n)) = decode o (.string (toString n)) := by
  intro h
  have hsame := (h (2 ^ 53 + 1) (by decide) .jsonText).1
  rw [decode_toValue .jsonText (by decide), reread_odd] at hsame
  exact absurd (Except.ok.inj hsame) (by decide)

end Duration

end Assay

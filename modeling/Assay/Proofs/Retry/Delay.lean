import Assay.Proofs.Number.Power
import Assay.Proofs.Retry.History

namespace Assay

namespace Double

variable {x : Double} {e : Nat}

attribute [local irreducible] one bound

theorem secondsToNanos?_of_upTo (h : x.UpTo e) (he : e < 64) : x.secondsToNanos?.isSome := by
  obtain ⟨s, q, rfl, hs, hq⟩ := h
  have hsign : ¬ (s && q != 0) = true := by
    simpa using hs
  have hbelow : ¬ Nat.pow 2 64 * one ≤ q :=
    Nat.not_le.mpr (Nat.lt_of_le_of_lt hq (pow_mul_one_lt he))
  rw [secondsToNanos?, if_neg hsign, if_neg hbelow]
  rfl

theorem secondsToNanos?_of_from (h : x.From e) (he : 64 ≤ e) : x.secondsToNanos? = none := by
  rcases h with rfl | ⟨q, rfl, hq⟩
  · rfl
  · have habove : Nat.pow 2 64 * one ≤ q := Nat.le_trans (pow_mul_one_le he) hq
    rw [secondsToNanos?, if_neg (by simp), if_pos habove]

end Double

namespace Duration

variable {d : Duration} {j : Nat}

open Double (one bound ofNat ofQuanta nearest UpTo From)

attribute [local irreducible] Double.one Double.bound

theorem exists_fraction (d : Duration) :
    ∃ f, (ofNat (d.millis % 1000 * 1000000)).div (ofNat nanosPerSecond) = .finite false f ∧
      f ≤ one ∧ (d.millis % 1000 = 0 → f = 0) := by
  have hbillion : nanosPerSecond ≤ 2 ^ 53 := by decide
  have hnanos : d.millis % 1000 * 1000000 ≤ nanosPerSecond := by
    unfold nanosPerSecond
    omega
  have hpos : 0 < nanosPerSecond * one := Nat.mul_pos (by decide) Double.one_pos
  let f := nearest (d.millis % 1000 * 1000000 * one * one) (nanosPerSecond * one)
  have hle : f ≤ 2 ^ 0 * one := by
    have hmul : d.millis % 1000 * 1000000 * one * one ≤ 2 ^ 0 * one * (nanosPerSecond * one) := by
      have hone := Nat.mul_le_mul_right (one * one) hnanos
      calc d.millis % 1000 * 1000000 * one * one
          = d.millis % 1000 * 1000000 * (one * one) := Nat.mul_assoc ..
        _ ≤ nanosPerSecond * (one * one) := hone
        _ = 2 ^ 0 * one * (nanosPerSecond * one) := by ring
    have hmono := Double.nearest_mono hmul (nanosPerSecond * one)
    rwa [Double.nearest_pow 0 hpos] at hmono
  refine ⟨f, ?_, by rwa [Nat.pow_zero, Nat.one_mul] at hle, ?_⟩
  · rw [Double.ofNat_exact (Nat.le_trans hnanos hbillion), Double.ofNat_exact hbillion, Double.div,
      if_neg (Nat.ne_of_gt hpos), Double.ofRatio, ofQuanta,
      if_pos (Double.lt_bound_of_le_pow hle (by decide))]
    rfl
  · intro hzero
    simp only [f, hzero, Nat.zero_mul, Double.nearest_zero]

theorem toSeconds_eq {w f : Nat} (hwhole : ofNat (d.millis / 1000) = .finite false w)
    (hpart : (ofNat (d.millis % 1000 * 1000000)).div (ofNat nanosPerSecond) = .finite false f) :
    d.toSeconds = ofQuanta false (nearest (w + f) 1) := by
  rw [toSeconds, hwhole, hpart, Double.add, if_pos rfl]

theorem toSeconds_upTo (hj : j < 64) (h : d.millis ≤ 1000 * 2 ^ j) : d.toSeconds.UpTo j := by
  obtain ⟨f, hpart, hf, hnone⟩ := d.exists_fraction
  have hseconds : d.millis / 1000 ≤ 2 ^ j := by omega
  have hwide : d.millis / 1000 < 2 ^ 64 :=
    Nat.lt_of_le_of_lt hseconds (Nat.pow_lt_pow_right (by decide) hj)
  have hw : nearest (d.millis / 1000 * one) 1 ≤ 2 ^ j * one :=
    Double.nearest_le_pow (Nat.mul_le_mul_right one hseconds)
  have hsum : nearest (nearest (d.millis / 1000 * one) 1 + f) 1 ≤ 2 ^ j * one := by
    by_cases heq : d.millis / 1000 = 2 ^ j
    · rw [hnone (by omega), Nat.add_zero]
      exact Double.nearest_le_pow hw
    · by_cases hsmall : j < 54
      · -- The whole seconds are exact, and there is at least one more up to the power.
        have hexact : d.millis / 1000 ≤ 2 ^ 53 :=
          hseconds.trans (Nat.pow_le_pow_right (by decide) (by omega))
        have hmul := Nat.mul_le_mul_right one (show d.millis / 1000 + 1 ≤ 2 ^ j by omega)
        rw [Nat.add_mul, Nat.one_mul] at hmul
        rw [Double.nearest_whole hexact]
        apply Double.nearest_le_pow
        omega
      · rw [← Double.nearest_add_one (Nat.le_of_not_lt hsmall)]
        exact Double.nearest_mono (Nat.add_le_add hw hf) 1
  have hlt := Double.lt_bound_of_le_pow hsum (by omega)
  rw [toSeconds_eq (Double.ofNat_finite hwide).1 hpart, ofQuanta, if_pos hlt]
  exact Double.upTo_of_le hsum

theorem toSeconds_from (h : 1000 * 2 ^ j ≤ d.millis) : d.toSeconds.From j := by
  obtain ⟨f, hpart, -, -⟩ := d.exists_fraction
  have hseconds : 2 ^ j ≤ d.millis / 1000 := by omega
  have hw : 2 ^ j * one ≤ nearest (d.millis / 1000 * one) 1 :=
    Double.le_nearest_pow (Nat.mul_le_mul_right one hseconds)
  by_cases hfinite : nearest (d.millis / 1000 * one) 1 < bound
  · have hwhole : ofNat (d.millis / 1000) = .finite false (nearest (d.millis / 1000 * one) 1) := by
      rw [ofNat, Double.ofRatio, ofQuanta, if_pos hfinite]
    rw [toSeconds_eq hwhole hpart, ofQuanta]
    split
    · exact .inr ⟨_, rfl, Double.le_nearest_pow (Nat.le_add_right_of_le hw)⟩
    · exact .inl rfl
  · have hwhole : ofNat (d.millis / 1000) = .infinite false := by
      rw [ofNat, Double.ofRatio, ofQuanta, if_neg hfinite]
    rw [toSeconds, hwhole, hpart]
    exact .inl rfl

theorem toSeconds_zero (h : d.millis = 0) : d.toSeconds = .finite false 0 := by
  obtain ⟨f, hpart, -, hnone⟩ := d.exists_fraction
  have hwhole : ofNat (d.millis / 1000) = .finite false 0 := by
    rw [h, Double.ofNat_exact (Nat.zero_le _), Nat.zero_mul]
  rw [toSeconds_eq hwhole hpart, hnone (by rw [h]), Double.nearest_zero, ofQuanta,
    if_pos Double.bound_pos]

end Duration

namespace RetryPolicy

open Script (AsksOnly runs_done)

variable {p : RetryPolicy} {n k j : Nat}

attribute [local irreducible] Double.one Double.bound

/-- The factor of an exponential policy. One below zero counts as zero. -/
def factor (p : RetryPolicy) : Double := (p.multiplier.getD usualMultiplier).maximum .zero

/-- The factor to the power that belongs to a number of failed attempts. -/
def growth (p : RetryPolicy) (n : Nat) : Double := Double.powNat (.ofNat 1) p.factor (n - 1)

theorem exponent_eq (hn : n ≤ 2 ^ 31) : exponent n = (n - 1 : Nat) := by
  have hwidth : Nat.pow 2 32 = 4294967296 := rfl
  unfold exponent
  rw [hwidth]
  apply Int.bmod_eq_of_le
  · omega
  · omega

theorem delayAfter?_exponential (h : p.backoff = some .exponential) (hn : n ≤ 2 ^ 31) :
    p.delayAfter? n = ((p.growth n).mul p.delay.toSeconds).secondsToNanos? := by
  have hpow : p.factor.pow (exponent n) = p.growth n := by
    rw [exponent_eq hn, Double.pow, if_neg (by omega), Int.natAbs_natCast]
    rfl
  rw [delayAfter?, h, ← hpow]
  rfl

theorem growth_upTo (hfactor : p.factor.atMost (.ofNat (2 ^ k))) (h : k * (n - 1) < 1024) :
    (p.growth n).UpTo (k * (n - 1)) := by
  have hone : (Double.ofNat 1).UpTo 0 := by
    rw [← Nat.pow_zero 2, Double.ofNat_pow (by decide)]
    exact Double.upTo_of_le (Nat.le_refl _)
  by_cases hn : n - 1 = 0
  · rw [growth, hn, Double.powNat_last rfl]
    exact hone
  · have hk : k < 1024 := Nat.lt_of_le_of_lt (Nat.le_mul_of_pos_right k (by omega)) h
    have hpow := hone.powNat (Double.upTo_of_atMost hk hfactor) (n := n - 1) (by omega)
    rwa [Nat.zero_add] at hpow

theorem growth_from (hk : k ≤ 1024) (hfactor : (Double.ofNat (2 ^ k)).atMost p.factor) :
    (p.growth n).From (k * (n - 1)) := by
  have hone : (Double.ofNat 1).From 0 :=
    .inr ⟨_, Double.ofNat_pow (k := 0) (by decide), Nat.le_refl _⟩
  have hpow := hone.powNat (Double.from_of_atMost hk hfactor) (n := n - 1)
  rwa [Nat.zero_add] at hpow

theorem delayAfter?_isSome (h : p.backoff = some .exponential) (hn : n ≤ 2 ^ 31)
    (hfactor : p.factor.atMost (.ofNat (2 ^ k))) (hdelay : p.delay.millis ≤ 1000 * 2 ^ j)
    (hsum : k * (n - 1) + j < 64) : (p.delayAfter? n).isSome := by
  have hgrowth := growth_upTo (p := p) (n := n) hfactor (by omega)
  have hseconds := Duration.toSeconds_upTo (j := j) (by omega) hdelay
  rw [delayAfter?_exponential h hn]
  exact Double.secondsToNanos?_of_upTo (hgrowth.mul hseconds (by omega)) hsum

theorem delayAfter?_eq_none (h : p.backoff = some .exponential) (hn : n ≤ 2 ^ 31) (hk : k ≤ 1024)
    (hfactor : (Double.ofNat (2 ^ k)).atMost p.factor) (hdelay : 1000 * 2 ^ j ≤ p.delay.millis)
    (hsum : 64 ≤ k * (n - 1) + j) : p.delayAfter? n = none := by
  have hproduct := (growth_from (n := n) hk hfactor).mul (Duration.toSeconds_from hdelay)
  rw [delayAfter?_exponential h hn]
  exact Double.secondsToNanos?_of_from hproduct hsum

theorem delayAfter?_of_no_delay (h : p.backoff = some .exponential) (hn : n ≤ 2 ^ 31)
    (hfactor : p.factor.atMost (.ofNat (2 ^ k))) (hdelay : p.delay.millis = 0)
    (hsum : k * (n - 1) < 1024) : p.delayAfter? n = some 0 := by
  obtain ⟨s, q, hgrowth, -, -⟩ := growth_upTo (p := p) (n := n) hfactor hsum
  have hpos : 0 < Nat.pow 2 64 * Double.one := Nat.mul_pos (by decide) Double.one_pos
  rw [delayAfter?_exponential h hn, hgrowth, Duration.toSeconds_zero hdelay, Double.mul,
    Nat.mul_zero, Double.nearest_zero, Double.ofQuanta, if_pos Double.bound_pos,
    Double.secondsToNanos?, if_neg (by simp), if_neg (Nat.not_le.mpr hpos), Nat.zero_mul]
  simp [roundedQuotient]

theorem delayAfter?_of_infinite_growth (h : p.backoff = some .exponential) (hn : n ≤ 2 ^ 31)
    (hk : k ≤ 1024) (hfactor : (Double.ofNat (2 ^ k)).atMost p.factor)
    (hdelay : p.delay.millis = 0) (hsum : 1024 ≤ k * (n - 1)) : p.delayAfter? n = none := by
  have hgrowth : p.growth n = .infinite false := by
    rcases growth_from (n := n) hk hfactor with hgrowth | ⟨q, hgrowth, hq⟩
    · exact hgrowth
    · have hpos : 0 < n - 1 := by
        by_contra hzero
        rw [Nat.eq_zero_of_not_pos hzero, Nat.mul_zero] at hsum
        omega
      have hlt := Double.lt_bound_of_powNat hpos hgrowth
      rw [Double.bound_eq_pow] at hlt
      have hle := Double.pow_mul_one_le hsum
      omega
  rw [delayAfter?_exponential h hn, hgrowth, Duration.toSeconds_zero hdelay]
  rfl

section Runs

variable {σ τ : Type} {once : σ → Run (Option String × σ)} {respond : Responder Query.Answer τ}

theorem tryAll_ends (calm : p.Calm) (honce : ∀ s, AsksOnly Query.HasAnswer (once s))
    (answers : respond.Answers) (s : σ) (now : Nat) (w : τ) :
    ((p.tryAll once s).play respond now w).isSome := by
  have hanswer : AsksOnly Query.HasAnswer (p.tryAll once s) :=
    p.tryFrom_asksOnly trivial honce 1 _
      (fun n hn hlast => calm.pause_hasAnswer hn (by omega)) s
  exact Script.play_isSome hanswer answers now w

theorem Calls.failed {s t : σ} {rounds : List Round} (h : Calls once s rounds t)
    (hfails : ∀ s es error t, (once s).Runs es (error, t) → error.isSome) :
    ∀ r ∈ rounds, r.error.isSome := by
  induction h with
  | nil s => simp
  | cons first rest ih => exact List.forall_mem_cons.mpr ⟨hfails _ _ _ _ first, ih⟩

theorem length_of_failed {limit : Nat} {errors : List (Option String)}
    (h : StopsInTime limit errors) (hfailed : ∀ e ∈ errors, e.isSome) : errors.length = limit := by
  let outcome (n : Nat) : Option String := (errors[n - 1]?).getD (some "")
  have houtcome : ∀ i e, errors[i]? = some e → outcome (i + 1) = e := by
    intro i e he
    simp only [outcome, Nat.add_sub_cancel, he]
    rfl
  rcases (h outcome houtcome).1 with hlimit | ⟨-, hpass⟩
  · exact hlimit
  · exfalso
    have hsome : (outcome errors.length).isSome := by
      simp only [outcome]
      cases he : errors[errors.length - 1]? with
      | none => rfl
      | some e => exact hfailed e (List.mem_of_getElem? he)
    rw [hpass] at hsome
    cases hsome

theorem tryAll_stuck (hcalm : ¬ p.Calm)
    (hfails : ∀ s es error t, (once s).Runs es (error, t) → error.isSome) (s : σ) (now : Nat)
    (w : τ) : (p.tryAll once s).play respond now w = none := by
  rw [Option.eq_none_iff_forall_ne_some]
  rintro ⟨⟨outcome, t⟩, later, w'⟩ hplay
  obtain ⟨rounds, history⟩ := runs_tryAll (Script.runs_of_play hplay)
  have hlength : (rounds.map (·.error)).length = max p.maxAttempts 1 := by
    apply length_of_failed history.count
    simpa using history.calls.failed hfails
  rw [List.length_map] at hlength
  apply hcalm
  intro n hn hlast
  exact history.waits n hn (by omega)

end Runs

/-- Without growth every attempt is followed by the delay itself. With it the delays are in range up
to an attempt that the factor and the delay tell, and from then on they are not. As long as all of
them are, trying comes to an end; otherwise a case that always fails is never done with. -/
theorem delays_in_range (p : RetryPolicy) :
    (p.backoff ≠ some .exponential → ∀ n, p.delayAfter? n = some p.delay.toNanos) ∧
    (p.backoff = some .exponential → ∀ n, n ≤ 2 ^ 31 → ∀ k, k ≤ 1024 →
      (p.factor.atMost (.ofNat (2 ^ k)) →
        (∀ j, p.delay.millis ≤ 1000 * 2 ^ j → k * (n - 1) + j < 64 → (p.delayAfter? n).isSome) ∧
        (p.delay.millis = 0 → k * (n - 1) < 1024 → p.delayAfter? n = some 0)) ∧
      ((Double.ofNat (2 ^ k)).atMost p.factor →
        (∀ j, 1000 * 2 ^ j ≤ p.delay.millis → 64 ≤ k * (n - 1) + j → p.delayAfter? n = none) ∧
        (p.delay.millis = 0 → 1024 ≤ k * (n - 1) → p.delayAfter? n = none))) ∧
    ∀ (σ τ : Type) (once : σ → Run (Option String × σ)) (respond : Responder Query.Answer τ),
      (p.Calm → (∀ s, AsksOnly Query.HasAnswer (once s)) → respond.Answers → ∀ s now w,
        ((p.tryAll once s).play respond now w).isSome) ∧
      (¬ p.Calm → (∀ s es error t, (once s).Runs es (error, t) → error.isSome) → ∀ s now w,
        (p.tryAll once s).play respond now w = none) := by
  refine ⟨?_, ?_, fun σ τ once respond => ⟨?_, ?_⟩⟩
  · intro hbackoff n
    unfold delayAfter?
    split
    · rfl
    · rfl
    · exact absurd ‹_› hbackoff
  · intro h n hn k hk
    refine ⟨fun hfactor => ⟨?_, ?_⟩, fun hfactor => ⟨?_, ?_⟩⟩
    · exact fun j hdelay hsum => delayAfter?_isSome h hn hfactor hdelay hsum
    · exact fun hdelay hsum => delayAfter?_of_no_delay h hn hfactor hdelay hsum
    · exact fun j hdelay hsum => delayAfter?_eq_none h hn hk hfactor hdelay hsum
    · exact fun hdelay hsum => delayAfter?_of_infinite_growth h hn hk hfactor hdelay hsum
  · exact fun calm honce answers s now w => tryAll_ends calm honce answers s now w
  · exact fun hcalm hfails s now w => tryAll_stuck hcalm hfails s now w

def doubling (maxAttempts : Nat) (delay : Duration) : RetryPolicy :=
  ⟨maxAttempts, delay, some .exponential, none⟩

/-- Delays that are doubled: a few, a second too often, and none until a power is infinite. -/
theorem delays_in_range_doubling :
    let brief := doubling 4 ⟨100⟩
    let long := doubling 100 ⟨1000⟩
    let instant := doubling 2000 ⟨0⟩
    brief.Calm ∧ ((brief.tryAll (recite Rehearsal.flaky) 1).play Rehearsal.World.respond 0
        Rehearsal.idleWorld).isSome ∧
      (long.delayAfter? 64).isSome ∧ long.delayAfter? 65 = none ∧
      instant.delayAfter? 1024 = some 0 ∧ instant.delayAfter? 1025 = none ∧ ¬ instant.Calm ∧
      (instant.tryAll (recite fun _ => some "down") 1).play Rehearsal.World.respond 0
        Rehearsal.idleWorld = none := by
  intro brief long instant
  have hmost (maxAttempts : Nat) (delay : Duration) :
      (doubling maxAttempts delay).factor.atMost (.ofNat (2 ^ 1)) := by
    change (usualMultiplier.maximum .zero).atMost (.ofNat (2 ^ 1))
    decide +kernel
  have hleast (maxAttempts : Nat) (delay : Duration) :
      (Double.ofNat (2 ^ 1)).atMost (doubling maxAttempts delay).factor := by
    change (Double.ofNat (2 ^ 1)).atMost (usualMultiplier.maximum .zero)
    decide +kernel
  obtain ⟨-, hbrief, hruns⟩ := brief.delays_in_range
  obtain ⟨-, hlong, -⟩ := long.delays_in_range
  obtain ⟨-, hinstant, hstuck⟩ := instant.delays_in_range
  have hcalm : brief.Calm := by
    intro n hn hlast
    have hlast : n < 4 := hlast
    exact ((hbrief rfl n (by omega) 1 (by decide)).1 (hmost _ _)).1 0 (by decide) (by omega)
  have hnone : instant.delayAfter? 1025 = none :=
    ((hinstant rfl 1025 (by decide) 1 (by decide)).2 (hleast _ _)).2 rfl (by decide)
  have hnotCalm : ¬ instant.Calm := by
    intro h
    have hsome := h 1025 (by decide) (by decide)
    rw [hnone] at hsome
    cases hsome
  have hfails : ∀ s es error t,
      (recite (fun _ => some "down") s).Runs es (error, t) → error.isSome := by
    intro s es error t h
    obtain ⟨-, hpair⟩ := runs_done h
    rw [(Prod.mk.inj hpair).1]
    rfl
  exact ⟨hcalm,
    (hruns _ _ _ _).1 hcalm (fun n => Script.asksOnly_pure _) Rehearsal.World.respond_answers _ _ _,
    ((hlong rfl 64 (by decide) 1 (by decide)).1 (hmost _ _)).1 0 (by decide) (by decide),
    ((hlong rfl 65 (by decide) 1 (by decide)).2 (hleast _ _)).1 0 (by decide) (by decide),
    ((hinstant rfl 1024 (by decide) 1 (by decide)).1 (hmost _ _)).2 rfl (by decide), hnone,
    hnotCalm, (hstuck _ _ _ _).2 hnotCalm hfails _ _ _⟩

/-- A policy without a delay, whose power gets infinite. -/
theorem exponential_delay_missing :
    ¬ ∀ (o : Origin) (d : Document) (p : RetryPolicy), RetryPolicy.decode o d = .ok p →
      ∀ n, 1 ≤ n → n < p.maxAttempts → (p.delayAfter? n).isSome := by
  intro h
  let d : Document :=
    .ofValue (.object [("maxAttempts", .nat 2000), ("backoff", .string "exponential")])
  have hdecode : RetryPolicy.decode .jsonValue d = .ok (doubling 2000 ⟨0⟩) := by rfl
  have hnone : (doubling 2000 ⟨0⟩).delayAfter? 1025 = none := by decide +kernel
  have hsome := h _ d _ hdecode 1025 (by decide) (by decide)
  rw [hnone] at hsome
  cases hsome

end RetryPolicy

end Assay

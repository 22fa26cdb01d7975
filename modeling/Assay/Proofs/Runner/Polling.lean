import Assay.Proofs.Runner.Suite
import Assay.Proofs.Script.Recorded
import Mathlib.Data.List.Chain

namespace Assay

open Script (Exchange AsksOnly recorded_bind_eq_some recorded_query_eq_some le_of_recorded
  recorded_eq_some_iff)

variable {σ β : Type} {respond : Responder Query.Answer σ} {slack now later : Nat} {s s' : σ}
  {es : List (Exchange Query.Answer)}

/-- What is known of the time between a question, asked at `now`, and its answer. The clock tells
the time, a sleep lasts as long as is asked for and at most `slack` longer, a report takes no time,
and a request or a connection comes to its end within its limit. -/
def Query.Lasts (slack now delay : Nat) : (q : Query) → q.Answer → Prop
  | .clock, (r : Nat) => r = now ∧ delay = 0
  | .sleep nanos, _ =>
    Rehearsal.sleepMillis nanos ≤ delay ∧ delay ≤ Rehearsal.sleepMillis nanos + slack
  | .send _ limit, _ | .connect _ _ limit, _ => delay ≤ limit.millis
  | .emit _, _ => delay = 0
  | _, _ => True

/-- A world in which time goes as it should, but for sleeps that last too long by `slack` at
most. -/
def Responder.KeepsTime (respond : Responder Query.Answer σ) (slack : Nat) : Prop :=
  ∀ q now s delay r s', respond q now s = some (delay, r, s') → q.Lasts slack now delay r

section Time

theorem sleepMillis_toNanos (d : Duration) : Rehearsal.sleepMillis d.toNanos = d.millis := by
  unfold Rehearsal.sleepMillis Duration.toNanos
  omega

theorem recorded_clock_bind {f : Nat → Run β} {b : β} (time : respond.KeepsTime slack)
    (h : (Run.clock >>= f).recorded respond now s = some (es, b, later, s')) :
    ∃ fs s₁, (f now).recorded respond now s₁ = some (fs, b, later, s') ∧
      es = ⟨.clock, now⟩ :: fs := by
  obtain ⟨_, fs, told, _, s₁, hclock, hf, rfl⟩ := recorded_bind_eq_some h
  obtain ⟨delay, hanswer, rfl, rfl⟩ := recorded_query_eq_some hclock
  obtain ⟨rfl, rfl⟩ := time _ _ _ _ _ _ hanswer
  exact ⟨fs, s₁, hf, rfl⟩

theorem recorded_sleep_bind {d : Duration} {f : Unit → Run β} {b : β}
    (time : respond.KeepsTime slack)
    (h : (Run.sleep d.toNanos >>= f).recorded respond now s = some (es, b, later, s')) :
    ∃ fs awake s₁, (f ()).recorded respond awake s₁ = some (fs, b, later, s') ∧
      es = ⟨.sleep d.toNanos, ()⟩ :: fs ∧ now + d.millis ≤ awake ∧
      awake ≤ now + d.millis + slack := by
  obtain ⟨_, fs, _, awake, s₁, hsleep, hf, rfl⟩ := recorded_bind_eq_some h
  obtain ⟨delay, hanswer, rfl, rfl⟩ := recorded_query_eq_some hsleep
  have hdelay : _ ≤ delay ∧ delay ≤ _ := time _ _ _ _ _ _ hanswer
  rw [sleepMillis_toNanos] at hdelay
  exact ⟨fs, now + delay, s₁, hf, rfl, by omega, by omega⟩

end Time

/-- One probe of a wait: when it began, what was asked, whether it succeeded, and when it ended. -/
structure Poll where
  start : Nat
  own : List (Exchange Query.Answer)
  passed : Bool
  stop : Nat

/-- The probe is made in this world, in whatever state. -/
def Poll.MadeBy (respond : Responder Query.Answer σ) (probe : Run Bool) (p : Poll) : Prop :=
  ∃ s s', probe.recorded respond p.start s = some (p.own, p.passed, p.stop, s')

/-- Probes one after another, up to the first one that succeeds or after which the next one would
come too late. It begins at one time and ends at another, with a verdict. Between two probes is a
pause, which may last too long by `slack`. -/
inductive Polling (IsPoll : Poll → Prop) (slack pause deadline : Nat) :
    Nat → List Poll → Bool → Nat → Prop
  | found {p : Poll} (first : IsPoll p) (passed : p.passed = true) :
    Polling IsPoll slack pause deadline p.start [p] true p.stop
  | late {p : Poll} (first : IsPoll p) (failed : p.passed = false)
    (due : deadline < p.stop + pause) : Polling IsPoll slack pause deadline p.start [p] false p.stop
  | again {p : Poll} {ps : List Poll} {found : Bool} {awake stop : Nat} (first : IsPoll p)
    (failed : p.passed = false) (due : p.stop + pause ≤ deadline) (paused : p.stop + pause ≤ awake)
    (woken : awake ≤ p.stop + pause + slack)
    (rest : Polling IsPoll slack pause deadline awake ps found stop) :
    Polling IsPoll slack pause deadline p.start (p :: ps) found stop

/-- Every probe takes some time. -/
def IsSlow (respond : Responder Query.Answer σ) (probe : Run Bool) : Prop :=
  ∀ now s found later s', probe.play respond now s = some (found, later, s') → now < later

section Loop

variable {probe : Run Bool} {limit pause : Duration} {deadline left : Nat} {found : Bool}

theorem Poll.MadeBy.callsOf_own {p : Poll} (hprobe : AsksOnly Query.IsProbe probe)
    (h : p.MadeBy respond probe) : callsOf p.own = p.own := by
  obtain ⟨s, s', hrecorded⟩ := h
  obtain ⟨hplay, hown⟩ := recorded_eq_some_iff.mp hrecorded
  rw [callsOf, List.filter_eq_self]
  intro e he
  rw [← hown] at he
  exact decide_eq_true (hprobe.of_mem (Script.runs_of_play hplay) e he)

theorem Poll.MadeBy.start_le {p : Poll} (h : p.MadeBy respond probe) : p.start ≤ p.stop := by
  obtain ⟨s, s', hrecorded⟩ := h
  exact le_of_recorded hrecorded

theorem Poll.MadeBy.step_le {p : Poll} (hslow : pause.millis = 0 → IsSlow respond probe)
    (h : p.MadeBy respond probe) : p.start + max pause.millis 1 ≤ p.stop + pause.millis := by
  have hle := h.start_le
  by_cases hpause : pause.millis = 0
  · obtain ⟨s, s', hrecorded⟩ := h
    have hlt := hslow hpause _ _ _ _ _ (recorded_eq_some_iff.mp hrecorded).1
    omega
  · omega

/-- The number of probes that are left never ends the wait before the deadline does. -/
theorem polling_of_pollFrom (time : respond.KeepsTime slack) (hprobe : AsksOnly Query.IsProbe probe)
    (hslow : pause.millis = 0 → IsSlow respond probe)
    (hleft : deadline < now + (left + 1) * max pause.millis 1)
    (h : (pollFrom probe pause deadline left).recorded respond now s =
      some (es, found, later, s')) :
    ∃ polls, Polling (Poll.MadeBy respond probe) slack pause.millis deadline now polls found later ∧
      callsOf es = polls.flatMap Poll.own := by
  induction left generalizing now s es with
  | zero =>
    let p : Poll := ⟨now, es, found, later⟩
    have hmade : p.MadeBy respond probe := ⟨s, s', h⟩
    have hown : callsOf es = [p].flatMap Poll.own := by
      rw [List.flatMap_singleton]
      exact hmade.callsOf_own hprobe
    refine ⟨[p], ?_, hown⟩
    cases hfound : found with
    | true => exact .found (p := p) hmade hfound
    | false =>
      have hstep := hmade.step_le hslow
      rw [Nat.zero_add, Nat.one_mul] at hleft
      exact .late (p := p) hmade hfound (Nat.lt_of_lt_of_le hleft hstep)
  | succ left ih =>
    obtain ⟨own, fs, passed, stop, s₁, hfirst, hrest, rfl⟩ := recorded_bind_eq_some h
    let p : Poll := ⟨now, own, passed, stop⟩
    have hmade : p.MadeBy respond probe := ⟨s, s₁, hfirst⟩
    have hown : callsOf own = own := hmade.callsOf_own hprobe
    cases hpassed : passed with
    | true =>
      rw [hpassed, if_pos rfl, Script.recorded_pure] at hrest
      cases hrest
      refine ⟨[p], .found (p := p) hmade hpassed, ?_⟩
      rw [List.append_nil, hown, List.flatMap_singleton]
    | false =>
      rw [hpassed, if_neg (by decide)] at hrest
      obtain ⟨gs, s₂, hgs, rfl⟩ := recorded_clock_bind time hrest
      by_cases hlate : stop + pause.millis > deadline
      · rw [if_pos hlate, Script.recorded_pure] at hgs
        cases hgs
        refine ⟨[p], .late (p := p) hmade hpassed hlate, ?_⟩
        rw [callsOf_append, hown, List.flatMap_singleton]
        exact List.append_nil own
      · rw [if_neg hlate] at hgs
        obtain ⟨ks, awake, s₃, hagain, rfl, hpaused, hwoken⟩ := recorded_sleep_bind time hgs
        have hstep : now + max pause.millis 1 ≤ stop + pause.millis := hmade.step_le hslow
        have hmore : deadline < awake + (left + 1) * max pause.millis 1 := by
          rw [Nat.add_mul _ 1, Nat.one_mul] at hleft
          omega
        obtain ⟨polls, hpolls, hks⟩ := ih hmore hagain
        have hdue := Nat.le_of_not_gt hlate
        refine ⟨p :: polls, .again (p := p) hmade hpassed hdue hpaused hwoken hpolls, ?_⟩
        rw [callsOf_append, hown, List.flatMap_cons, ← hks]
        rfl

theorem polling_of_poll (time : respond.KeepsTime slack) (hprobe : AsksOnly Query.IsProbe probe)
    (hslow : pause.millis = 0 → IsSlow respond probe)
    (h : (poll probe limit pause).recorded respond now s = some (es, found, later, s')) :
    ∃ polls, Polling (Poll.MadeBy respond probe) slack pause.millis (now + limit.millis) now polls
      found later ∧ callsOf es = polls.flatMap Poll.own := by
  obtain ⟨fs, s₁, hrest, rfl⟩ := recorded_clock_bind time h
  have hpos : 0 < max pause.millis 1 := by omega
  have hdiv := Nat.lt_div_mul_add hpos (a := limit.millis)
  have hleft : now + limit.millis < now + (pollsWithin limit pause + 1) * max pause.millis 1 := by
    rw [pollsWithin, Nat.add_mul, Nat.one_mul]
    omega
  obtain ⟨polls, hpolls, hfs⟩ := polling_of_pollFrom time hprobe hslow hleft hrest
  exact ⟨polls, hpolls, hfs⟩

end Loop

section Course

variable {IsPoll : Poll → Prop} {pause deadline start stop : Nat} {found : Bool} {polls : List Poll}

theorem Polling.each (h : Polling IsPoll slack pause deadline start polls found stop) :
    ∀ p ∈ polls, IsPoll p := by
  induction h with
  | found first passed => simpa using first
  | late first failed due => simpa using first
  | again first failed due paused woken rest ih => exact List.forall_mem_cons.mpr ⟨first, ih⟩

theorem Polling.begins (h : Polling IsPoll slack pause deadline start polls found stop) :
    ∃ p, polls.head? = some p ∧ p.start = start := by
  cases h <;> exact ⟨_, rfl, rfl⟩

theorem Polling.ends (h : Polling IsPoll slack pause deadline start polls found stop) :
    ∃ p, polls.getLast? = some p ∧ p.stop = stop := by
  induction h with
  | found first passed => exact ⟨_, rfl, rfl⟩
  | late first failed due => exact ⟨_, rfl, rfl⟩
  | @again p ps found awake stop first failed due paused woken rest ih =>
    obtain ⟨q, hq, hstop⟩ := ih
    exact ⟨q, by simp [List.getLast?_cons, hq], hstop⟩

theorem Polling.inTime (h : Polling IsPoll slack pause deadline start polls found stop)
    (hstart : start ≤ deadline + slack) : ∀ p ∈ polls, p.start ≤ deadline + slack := by
  induction h with
  | found first passed => simpa using hstart
  | late first failed due => simpa using hstart
  | again first failed due paused woken rest ih =>
    exact List.forall_mem_cons.mpr ⟨hstart, ih (by omega)⟩

/-- A probe begins a pause after the end of the one before it, or somewhat later. -/
theorem Polling.apart (h : Polling IsPoll slack pause deadline start polls found stop) :
    polls.IsChain fun p q => p.stop + pause ≤ q.start := by
  induction h with
  | found first passed => exact .singleton _
  | late first failed due => exact .singleton _
  | again first failed due paused woken rest ih =>
    obtain ⟨q, hq, hstart⟩ := rest.begins
    rw [List.isChain_cons, hq]
    refine ⟨?_, ih⟩
    rintro _ ⟨⟩
    exact hstart.symm ▸ paused

theorem Polling.failed (h : Polling IsPoll slack pause deadline start polls found stop) :
    ∀ p ∈ polls.dropLast, p.passed = false := by
  induction h with
  | found first passed => simp
  | late first failed due => simp
  | again first failed due paused woken rest ih =>
    obtain ⟨q, hq, -⟩ := rest.begins
    obtain ⟨qs, rfl⟩ := List.head?_eq_some_iff.mp hq
    rw [List.dropLast_cons_cons]
    exact List.forall_mem_cons.mpr ⟨failed, ih⟩

theorem Polling.verdict (h : Polling IsPoll slack pause deadline start polls found stop) :
    found = true ↔ ∃ p ∈ polls, p.passed = true := by
  induction h with
  | found first passed => simp [passed]
  | late first failed due => simp [failed]
  | again first failed due paused woken rest ih => simp [failed, ih]

/-- All probes but the first one are paid for by a pause that was to end by the deadline. -/
theorem Polling.length_le (h : Polling IsPoll slack pause deadline start polls found stop)
    (hforward : ∀ p, IsPoll p → p.start ≤ p.stop) :
    polls.length = 1 ∨ start + (polls.length - 1) * pause ≤ deadline := by
  induction h with
  | found first passed => exact .inl rfl
  | late first failed due => exact .inl rfl
  | @again p ps found awake stop first failed due paused woken rest ih =>
    have hle := hforward p first
    obtain ⟨q, hq, -⟩ := rest.begins
    obtain ⟨qs, rfl⟩ := List.head?_eq_some_iff.mp hq
    right
    simp only [List.length_cons, Nat.add_sub_cancel, Nat.add_mul, Nat.one_mul] at ih ⊢
    rcases ih with hsingle | hrest
    · rw [Nat.add_eq_right.mp hsingle]
      omega
    · omega

theorem Polling.persists (h : Polling IsPoll slack pause deadline start polls found stop)
    (hfailed : found = false) : deadline < stop + pause := by
  induction h with
  | found first passed => cases hfailed
  | late first failed due => exact due
  | again first failed due paused woken rest ih => exact ih hfailed

end Course

/-- How a wait goes that begins at `start` and ends at `stop`. `longest` is how long a probe may
take, and `slack` how much longer than asked a sleep may last. -/
structure Waited (IsPoll : List (Exchange Query.Answer) → Bool → Prop) (slack : Nat)
    (limit pause longest : Duration) (start : Nat) (polls : List Poll) (found : Bool) (stop : Nat) :
    Prop where
  each : ∀ p ∈ polls, IsPoll p.own p.passed
  lasts : ∀ p ∈ polls, p.start ≤ p.stop ∧ p.stop ≤ p.start + longest.millis
  begins : ∃ p, polls.head? = some p ∧ p.start = start
  ends : ∃ p, polls.getLast? = some p ∧ p.stop = stop
  inTime : ∀ p ∈ polls, p.start ≤ start + limit.millis + slack
  apart : polls.IsChain fun p q => p.start + pause.millis ≤ q.start
  failed : ∀ p ∈ polls.dropLast, p.passed = false
  verdict : found = true ↔ ∃ p ∈ polls, p.passed = true
  count : 0 < pause.millis → polls.length ≤ limit.millis / pause.millis + 1
  returns : stop ≤ start + limit.millis + slack + longest.millis
  persists : found = false → start + limit.millis < stop + pause.millis

theorem Polling.waited {IsPoll : List (Exchange Query.Answer) → Bool → Prop}
    {IsMade : Poll → Prop} {limit pause longest : Duration} {start stop : Nat} {polls : List Poll}
    {found : Bool}
    (hmade : ∀ p, IsMade p → IsPoll p.own p.passed ∧ p.start ≤ p.stop ∧
      p.stop ≤ p.start + longest.millis)
    (h : Polling IsMade slack pause.millis (start + limit.millis) start polls found stop) :
    Waited IsPoll slack limit pause longest start polls found stop where
  each p hp := (hmade p (h.each p hp)).1
  lasts p hp := (hmade p (h.each p hp)).2
  begins := h.begins
  ends := h.ends
  inTime := h.inTime (by omega)
  apart := by
    refine h.apart.imp_of_mem_imp fun p q hp _ hpaused => ?_
    have hle := (hmade p (h.each p hp)).2.1
    omega
  failed := h.failed
  verdict := h.verdict
  count hpause := by
    have hlength := h.length_le fun p hp => (hmade p hp).2.1
    have hmul : (polls.length - 1) * pause.millis ≤ limit.millis := by
      rcases hlength with hsingle | hdue
      · simp [hsingle]
      · omega
    have hdiv := (Nat.le_div_iff_mul_le hpause).mpr hmul
    omega
  returns := by
    obtain ⟨p, hlast, rfl⟩ := h.ends
    have hp := List.mem_of_getLast? hlast
    have hstart := h.inTime (by omega) p hp
    have hstop := (hmade p (h.each p hp)).2.2
    omega
  persists := h.persists

end Assay

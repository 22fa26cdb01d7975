import Assay.Proofs.Runner.Account

namespace Assay

open Script (AsksOnly Exchange)

/-- An attempt without the moment when it began. -/
def Attempt.undated (a : Attempt) : Attempt := { a with timestamp := 0 }

/-- An attempt that began so much later. -/
def Attempt.later (late : Nat) (a : Attempt) : Attempt :=
  { a with timestamp := a.timestamp + late }

@[simp]
theorem Attempt.undated_later (late : Nat) (a : Attempt) : (a.later late).undated = a.undated := rfl

@[simp]
theorem Attempt.later_zero : Attempt.later 0 = id := rfl

/-- An event without what depends on when the cases of a suite are run: the moments of attempts and
the time that the suite took. -/
def Event.undated : Event → Event
  | casePass suite name durationMs attempts =>
    casePass suite name durationMs (attempts.map (·.map Attempt.undated))
  | caseFail suite name durationMs error report attempts =>
    caseFail suite name durationMs error report (attempts.map (·.map Attempt.undated))
  | suiteEnd suite passed failed skipped _ => suiteEnd suite passed failed skipped 0
  | e => e

namespace Run

variable {α β γ δ σ : Type} {collects : Bool} {late : Nat} {s : Run α} {t : Run β}
  {R : Nat → α → β → Prop} {S : Nat → γ → δ → Prop}

/-- The second run does what the first one does, `late` behind it. Besides, if somebody collects
diagnostics, it may ask for them, and is later by any time after that. -/
inductive Trails (collects : Bool) (R : Nat → α → β → Prop) : Nat → Run α → Run β → Prop
  | done {late : Nat} {a : α} {b : β} (h : R late a b) : Trails collects R late (.done a) (.done b)
  | ask {late : Nat} {q : Query} {next : q.Answer → Run α} {next' : q.Answer → Run β}
      (steady : q.IsSteady) (rest : ∀ a, Trails collects R late (next a) (next' a)) :
      Trails collects R late (.ask q next) (.ask q next')
  | clock {late : Nat} {next : Query.clock.Answer → Run α} {next' : Query.clock.Answer → Run β}
      (rest : ∀ now : Nat, Trails collects R late (next now) (next' (now + late : Nat))) :
      Trails collects R late (.ask .clock next) (.ask .clock next')
  | emit {late : Nat} {x y : Event} {next : (Query.emit x).Answer → Run α}
      {next' : (Query.emit y).Answer → Run β}
      (alike : x.withoutDiagnostics.undated = y.withoutDiagnostics.undated)
      (prompt : late = 0 → x.withoutDiagnostics = y.withoutDiagnostics)
      (rest : Trails collects R late (next ()) (next' ())) :
      Trails collects R late (.ask (.emit x) next) (.ask (.emit y) next')
  | collect {late : Nat} {s : Run α} {request : DiagnosticsRequest}
      {next : (Query.collect request).Answer → Run β} (may : collects = true)
      (rest : ∀ a pause, Trails collects R (late + pause) s (next a)) :
      Trails collects R late s (.ask (.collect request) next)

theorem trails_pure {a : α} {b : β} (h : R late a b) : Trails collects R late (pure a) (pure b) :=
  .done h

theorem Trails.bind {f : α → Run γ} {g : β → Run δ} (h : Trails collects R late s t)
    (hf : ∀ late a b, R late a b → Trails collects S late (f a) (g b)) :
    Trails collects S late (s >>= f) (t >>= g) := by
  induction h with
  | done h => exact hf _ _ _ h
  | ask steady rest ih => exact .ask steady ih
  | clock rest ih => exact .clock ih
  | emit alike prompt rest ih => exact .emit alike prompt ih
  | collect may rest ih => exact .collect may ih

theorem Trails.each {R : Nat → σ → σ → Prop} {step step' : σ → α → Run σ}
    (h : ∀ late s t a, R late s t → Trails collects R late (step s a) (step' t a)) {s t : σ}
    (hst : R late s t) (as : List α) :
    Trails collects R late (Script.each step s as) (Script.each step' t as) := by
  induction as generalizing late s t with
  | nil => exact trails_pure hst
  | cons a as ih => exact (h late s t a hst).bind fun _ _ _ hnext => ih hnext

/-- A run that does not look at the clock is the same however late it is; one that is not late may
look at it. -/
theorem trails_self (h : AsksOnly (fun q => q.IsSteady ∨ q = .clock ∧ late = 0) s) :
    Trails collects (fun l a b => l = late ∧ a = b) late s s := by
  induction h with
  | done a => exact .done ⟨rfl, rfl⟩
  | ask here rest ih =>
    rcases here with steady | ⟨rfl, rfl⟩
    · exact .ask steady ih
    · exact .clock ih

theorem trails_steady (h : AsksOnly Query.IsSteady s) :
    Trails collects (fun l a b => l = late ∧ a = b) late s s :=
  trails_self (h.mono fun _ => .inl)

theorem trails_clock :
    Trails collects (fun l x y => l = late ∧ y = x + late) late Run.clock Run.clock :=
  .clock fun _ => .done ⟨rfl, rfl⟩

theorem trails_emit {x y : Event}
    (alike : x.withoutDiagnostics.undated = y.withoutDiagnostics.undated)
    (prompt : late = 0 → x.withoutDiagnostics = y.withoutDiagnostics) :
    Trails collects (fun l _ _ => l = late) late (Run.emit x) (Run.emit y) :=
  .emit alike prompt (.done rfl)

section Attempts

variable {once : σ → Run (Option String × σ)}

theorem trails_attempt (honce : ∀ s, AsksOnly Query.IsSteady (once s)) (number : Nat) (s : σ) :
    Trails collects (fun l x y => l = late ∧ y = (x.1.later late, x.2)) late
      (RetryPolicy.attempt once number s) (RetryPolicy.attempt once number s) := by
  refine trails_clock.bind ?_
  rintro late start _ ⟨rfl, rfl⟩
  refine (trails_steady (honce s)).bind ?_
  rintro late ⟨error, t⟩ _ ⟨rfl, rfl⟩
  refine trails_clock.bind ?_
  rintro late stop _ ⟨rfl, rfl⟩
  refine trails_pure ⟨rfl, ?_⟩
  simp only [Attempt.later, Nat.add_sub_add_right]

theorem trails_tryFrom (p : RetryPolicy) (honce : ∀ s, AsksOnly Query.IsSteady (once s))
    (number left : Nat) (s : σ) :
    Trails collects
      (fun l x y => l = late ∧
        y = ({ x.1 with attempts := x.1.attempts.map (Attempt.later late) }, x.2))
      late (p.tryFrom once number left s) (p.tryFrom once number left s) := by
  induction left generalizing number s with
  | zero => exact trails_pure ⟨rfl, rfl⟩
  | succ left ih =>
    refine (trails_attempt honce number s).bind ?_
    rintro late ⟨a, t⟩ _ ⟨rfl, rfl⟩
    have hpassed : (a.later late).passed = a.passed := rfl
    simp only [hpassed]
    split
    · exact trails_pure ⟨rfl, rfl⟩
    · split
      · exact trails_pure ⟨rfl, rfl⟩
      · refine (trails_steady (p.pause_asksOnly (fun _ => trivial) trivial number)).bind ?_
        rintro late _ _ ⟨rfl, rfl⟩
        refine (ih (number + 1) t).bind ?_
        rintro late ⟨outcome, u⟩ _ ⟨rfl, rfl⟩
        exact trails_pure ⟨rfl, rfl⟩

end Attempts

section Suites

variable {retry : Option RetryPolicy} {suite : Suite} {options : RunOptions}
  {settings : StepSettings}

theorem runOnce_isSteady [Libraries] (s : Step) (settings : StepSettings) (ctx : Context) :
    AsksOnly Query.IsSteady (s.runOnce settings ctx) :=
  (s.runOnce_asksOnly settings ctx).mono fun _ => Query.IsErrand.isSteady

theorem trails_tryCase [Libraries] (case : Step) (ctx : Context) :
    Trails collects
      (fun l x y => l = late ∧ y = ((x.1.1, x.1.2.map (·.map (Attempt.later late))), x.2)) late
      (Runner.tryCase ⟨false, retry⟩ suite settings case ctx)
      (Runner.tryCase ⟨collects, retry⟩ suite settings case ctx) := by
  have hpolicy : Runner.policyFor ⟨collects, retry⟩ suite case =
    Runner.policyFor ⟨false, retry⟩ suite case := rfl
  unfold Runner.tryCase
  rw [hpolicy]
  cases Runner.policyFor ⟨false, retry⟩ suite case with
  | none =>
    refine (trails_steady (runOnce_isSteady case settings ctx)).bind ?_
    rintro late ⟨error, ctx'⟩ _ ⟨rfl, rfl⟩
    exact trails_pure ⟨rfl, rfl⟩
  | some p =>
    refine (trails_tryFrom p (fun ctx => runOnce_isSteady case settings ctx) 1 _ ctx).bind ?_
    rintro late ⟨outcome, ctx'⟩ _ ⟨rfl, rfl⟩
    exact trails_pure ⟨rfl, rfl⟩

/-- Nobody collects diagnostics in the first run; what is collected in the second takes time. -/
theorem trails_diagnose :
    Trails collects (fun l x _ => late ≤ l ∧ x = none) late
      (Runner.diagnose ⟨false, retry⟩ options) (Runner.diagnose ⟨collects, retry⟩ options) := by
  cases collects with
  | false => exact trails_pure ⟨Nat.le_refl _, rfl⟩
  | true =>
    unfold Runner.diagnose
    simp only [Bool.false_eq_true, if_false, if_true]
    cases options.diagnostics.filter (!·.isEmpty) with
    | none => exact trails_pure ⟨Nat.le_refl _, rfl⟩
    | some request =>
      refine .collect rfl fun report pause => ?_
      cases report with
      | ok report => exact .done ⟨Nat.le_add_right late pause, rfl⟩
      | error e => exact .done ⟨Nat.le_add_right late pause, rfl⟩

theorem undated_later (late : Nat) (attempts : Option (List Attempt)) :
    (attempts.map (·.map (Attempt.later late))).map (·.map Attempt.undated) =
      attempts.map (·.map Attempt.undated) := by
  cases attempts <;> simp

theorem later_zero (attempts : Option (List Attempt)) :
    attempts.map (·.map (Attempt.later 0)) = attempts := by
  cases attempts <;> simp

theorem trails_runCase [Libraries] (state : Tally × Context) (case : Step) :
    Trails collects (fun _ x y => x = y) late
      (Runner.runCase ⟨false, retry⟩ suite options settings state case)
      (Runner.runCase ⟨collects, retry⟩ suite options settings state case) := by
  obtain ⟨tally, ctx⟩ := state
  simp only [Runner.runCase]
  cases case.skipReason options.filter with
  | some reason => exact (trails_emit rfl fun _ => rfl).bind fun _ _ _ _ => trails_pure rfl
  | none =>
    refine (trails_emit rfl fun _ => rfl).bind ?_
    rintro late _ _ rfl
    refine trails_clock.bind ?_
    rintro late start _ ⟨rfl, rfl⟩
    refine (trails_tryCase case ctx).bind ?_
    rintro late ⟨⟨error, attempts⟩, ctx'⟩ _ ⟨rfl, rfl⟩
    refine trails_clock.bind ?_
    rintro late stop _ ⟨rfl, rfl⟩
    -- The case took as long as before, since nobody is asked for diagnostics meanwhile.
    simp only [Nat.add_sub_add_right]
    cases error with
    | none =>
      refine (trails_emit ?_ ?_).bind fun _ _ _ _ => trails_pure rfl
      · simp only [Event.withoutDiagnostics, Event.undated, undated_later]
      · rintro rfl
        rw [later_zero]
    | some e =>
      refine trails_diagnose.bind ?_
      rintro later _ report ⟨hlater, rfl⟩
      refine (trails_emit ?_ ?_).bind fun _ _ _ _ => trails_pure rfl
      · simp only [Event.withoutDiagnostics, Event.undated, undated_later]
      · intro hzero
        obtain rfl : late = 0 := by omega
        simp only [Event.withoutDiagnostics, later_zero]

theorem trails_runSuite [Libraries] (retry : Option RetryPolicy) (suite : Suite)
    (options : RunOptions) (ctx : Context) :
    Trails collects
      (fun l x y => x.1.timeless = y.1.timeless ∧ x.2 = y.2 ∧ (l = 0 → x.1 = y.1)) 0
      (Runner.runSuite ⟨false, retry⟩ suite options ctx)
      (Runner.runSuite ⟨collects, retry⟩ suite options ctx) := by
  unfold Runner.runSuite
  refine trails_clock.bind ?_
  rintro _ _ start ⟨rfl, rfl⟩
  refine (trails_emit rfl fun _ => rfl).bind ?_
  rintro _ _ _ rfl
  refine (Trails.each (R := fun l x y => l = 0 ∧ x = y) ?_ ⟨rfl, rfl⟩ _).bind ?_
  · rintro _ ctx _ entry ⟨rfl, rfl⟩
    refine trails_self (entry.run_asksOnly (fun q hq => .inl hq.isSteady) (.inr ⟨rfl, rfl⟩)
      (fun _ _ => .inl trivial) _ ctx)
  rintro _ ctx₁ _ ⟨rfl, rfl⟩
  refine (Trails.each (R := fun _ x y => x = y) ?_ rfl _).bind ?_
  · rintro late state _ case rfl
    exact trails_runCase state case
  rintro late ⟨tally, ctx₂⟩ _ rfl
  refine (Trails.each (R := fun l x y => l = late ∧ x = y) ?_ ⟨rfl, rfl⟩ _).bind ?_
  · rintro _ ctx _ step ⟨rfl, rfl⟩
    exact trails_steady (step.runTeardown_asksOnly (fun q hq => hq.isSteady)
      (fun _ _ => trivial) _ ctx)
  rintro _ ctx₃ _ ⟨rfl, rfl⟩
  refine trails_clock.bind ?_
  rintro late stop _ ⟨rfl, rfl⟩
  refine (trails_emit ?_ ?_).bind ?_
  · rfl
  · rintro rfl
    rfl
  · rintro late _ _ rfl
    refine trails_pure ⟨rfl, rfl, ?_⟩
    rintro rfl
    rfl

end Suites

end Run

/-- But for the one who collects diagnostics, whoever is there answers the same at any time. -/
theorem Collaborators.world_steady {σ : Type} (c : Collaborators σ) {q : Query} (h : q.IsSteady)
    (w : σ) : ∃ answer : Option (Nat × q.Answer × σ),
      ∀ (κ : Type) (d : Option (Examiner κ)) (now : Nat) (k : κ),
        c.world d q now (w, k) = answer.map fun x => (x.1, x.2.1, x.2.2, k) := by
  cases q with
  | exec target command limit =>
    exact ⟨some (c (.exec target command limit) trivial w), fun _ _ _ _ => rfl⟩
  | send request limit => exact ⟨some (c (.send request limit) trivial w), fun _ _ _ _ => rfl⟩
  | connect host port limit =>
    exact ⟨some (c (.connect host port limit) trivial w), fun _ _ _ _ => rfl⟩
  | sleep nanos => exact ⟨some (Rehearsal.sleepMillis nanos, (), w), fun _ _ _ _ => rfl⟩
  | sleepForever => exact ⟨none, fun _ _ _ _ => rfl⟩
  | emit event => exact ⟨some (0, (), w), fun _ _ _ _ => rfl⟩
  | clock | collect request => exact h.elim

/-- What two runs have in common at their ends when the second trailed the first. -/
structure TrailsEnd {α β τ υ : Type} (instant : Prop) (R : Nat → α → β → Prop) (late : Nat)
    (x : List (Exchange Query.Answer) × α × Nat × τ)
    (y : List (Exchange Query.Answer) × β × Nat × υ) : Prop where
  later : ∃ later, late ≤ later ∧ (instant → later = late) ∧ R later x.2.1 y.2.1 ∧
    (later = 0 → (eventsOf x.1).map Event.withoutDiagnostics =
      (eventsOf y.1).map Event.withoutDiagnostics)
  calls : callsOf x.1 = callsOf y.1
  events : (eventsOf x.1).map (Event.undated ∘ Event.withoutDiagnostics) =
    (eventsOf y.1).map (Event.undated ∘ Event.withoutDiagnostics)

namespace TrailsEnd

variable {α β τ υ : Type} {instant : Prop} {R : Nat → α → β → Prop} {late pause : Nat}
  {x : List (Exchange Query.Answer) × α × Nat × τ} {y : List (Exchange Query.Answer) × β × Nat × υ}

theorem cons (h : TrailsEnd instant R late x y) {e e' : Exchange Query.Answer}
    (calls : callsOf [e] = callsOf [e'])
    (events : (eventsOf [e]).map (Event.undated ∘ Event.withoutDiagnostics) =
      (eventsOf [e']).map (Event.undated ∘ Event.withoutDiagnostics))
    (prompt : late = 0 → (eventsOf [e]).map Event.withoutDiagnostics =
      (eventsOf [e']).map Event.withoutDiagnostics) :
    TrailsEnd instant R late (x.map (e :: ·) id) (y.map (e' :: ·) id) := by
  obtain ⟨later, hlater, hinstant, hresult, hprompt⟩ := h.later
  have hleft : (x.map (e :: ·) id).1 = [e] ++ x.1 := rfl
  have hright : (y.map (e' :: ·) id).1 = [e'] ++ y.1 := rfl
  refine ⟨⟨later, hlater, hinstant, hresult, fun hzero => ?_⟩, ?_, ?_⟩
  · rw [hleft, hright, eventsOf_append, eventsOf_append, List.map_append, List.map_append,
      hprompt hzero, prompt (by omega)]
  · rw [hleft, hright, callsOf_append, callsOf_append, calls, h.calls]
  · rw [hleft, hright, eventsOf_append, eventsOf_append, List.map_append, List.map_append, events,
      h.events]

theorem same (h : TrailsEnd instant R late x y) (e : Exchange Query.Answer) :
    TrailsEnd instant R late (x.map (e :: ·) id) (y.map (e :: ·) id) :=
  h.cons rfl rfl fun _ => rfl

theorem collected (h : TrailsEnd instant R (late + pause) x y) (hpause : instant → pause = 0)
    (request : DiagnosticsRequest) (a : (Query.collect request).Answer) :
    TrailsEnd instant R late x (y.map (⟨.collect request, a⟩ :: ·) id) := by
  obtain ⟨later, hlater, hinstant, hresult, hprompt⟩ := h.later
  refine ⟨⟨later, by omega, fun hi => ?_, hresult, hprompt⟩, h.calls, h.events⟩
  rw [hinstant hi, hpause hi, Nat.add_zero]

end TrailsEnd

theorem optionRel_map {α β γ δ : Type} {R : α → β → Prop} {S : γ → δ → Prop} {x : Option α}
    {y : Option β} {f : α → γ} {g : β → δ} (h : Option.Rel R x y)
    (hf : ∀ a b, R a b → S (f a) (g b)) : Option.Rel S (x.map f) (y.map g) := by
  cases h with
  | some h => exact .some (hf _ _ h)
  | none => exact .none

theorem Run.Trails.recorded {α β σ κ ν : Type} {R : Nat → α → β → Prop} {d : Option (Examiner κ)}
    {late : Nat} {s : Run α} {t : Run β} (h : Trails d.isSome R late s t) (c : Collaborators σ)
    (now : Nat) (w : σ) (k : κ) (v : ν) :
    Option.Rel (TrailsEnd (∀ collect ∈ d, collect.Instant) R late)
      (s.recorded (c.world (none : Option (Examiner ν))) now (w, v))
      (t.recorded (c.world d) (now + late) (w, k)) := by
  induction h generalizing now w k with
  | @done late a b h =>
    exact .some ⟨⟨late, Nat.le_refl late, fun _ => rfl, h, fun _ => rfl⟩, rfl, rfl⟩
  | @ask late q next next' steady rest ih =>
    obtain ⟨answer, hanswer⟩ := c.world_steady steady w
    rw [Script.recorded_ask, Script.recorded_ask, hanswer, hanswer]
    cases answer with
    | none => exact .none
    | some x =>
      obtain ⟨takes, a, w'⟩ := x
      have hrest := ih a (now + takes) w' k
      rw [Nat.add_right_comm] at hrest
      exact optionRel_map hrest fun x y h => h.same ⟨q, a⟩
  | @clock late next next' rest ih =>
    have hrest := ih now now w k
    rw [Script.recorded_ask, Script.recorded_ask]
    refine optionRel_map hrest fun x y h => h.cons rfl rfl fun _ => rfl
  | @emit late x y next next' alike prompt rest ih =>
    rw [Script.recorded_ask, Script.recorded_ask]
    refine optionRel_map (ih now w k) fun _ _ h => h.cons rfl ?_ ?_
    · exact congrArg (fun z => [z]) alike
    · exact fun hzero => congrArg (fun z => [z]) (prompt hzero)
  | @collect late s request next may rest ih =>
    cases d with
    | none => cases may
    | some collect =>
      rw [Script.recorded_ask]
      have hrest := ih (collect request (now + late) k).2.1 (collect request (now + late) k).1 now w
        (collect request (now + late) k).2.2
      rw [← Nat.add_assoc] at hrest
      have hmap := optionRel_map (f := id) hrest fun x y h => h.collected
        (fun instant => instant collect rfl request (now + late) k) request
        (collect request (now + late) k).2.1
      rwa [Option.map_id] at hmap

end Assay

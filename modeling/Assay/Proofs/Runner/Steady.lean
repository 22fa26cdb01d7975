import Assay.Proofs.Runner.Questions

namespace Assay

open Script (Exchange AsksOnly asksOnly_pure asksOnly_query asksOnly_bind runs_bind runs_done
  runs_query)

/-- Collaborators whose answers depend on nothing but the call. Those who collect diagnostics may be
left out, and then answer anything. -/
structure Oracle where
  exec : String → String → Duration → Except Error ExecOutput
  send : HttpRequest → Duration → HttpReply
  connect : String → Nat → Duration → Bool
  collect : Option (DiagnosticsRequest → Except Error DiagnosticsReport)

/-- What has a single answer once the collaborators have theirs. -/
def Query.IsSteady : Query → Prop
  | clock | collect _ => False
  | _ => True

theorem Query.IsErrand.isSteady {q : Query} (h : q.IsErrand) : q.IsSteady := by
  cases q <;> trivial

def Attempt.timeless (a : Attempt) : Attempt := { a with durationMs := 0, timestamp := 0 }

def Summary.timeless (s : Summary) : Summary := { s with durationMs := 0 }

namespace Event

/-- An event without the times in it. -/
def timeless : Event → Event
  | casePass suite name _ attempts =>
    casePass suite name 0 (attempts.map (·.map Attempt.timeless))
  | caseFail suite name _ error report attempts =>
    caseFail suite name 0 error report (attempts.map (·.map Attempt.timeless))
  | suiteEnd suite passed failed skipped _ => suiteEnd suite passed failed skipped 0
  | e => e

def withoutDiagnostics : Event → Event
  | caseFail suite name durationMs error _ attempts =>
    caseFail suite name durationMs error none attempts
  | e => e

end Event

namespace Oracle

/-- The answers that may be given. Time goes as it likes. -/
def Answers (o : Oracle) : Exchange Query.Answer → Prop
  | ⟨.exec target command limit, a⟩ => a = o.exec target command limit
  | ⟨.send request limit, a⟩ => a = o.send request limit
  | ⟨.connect host port limit, a⟩ => a = o.connect host port limit
  | ⟨.collect request, a⟩ => ∀ collect, o.collect = some collect → a = collect request
  | _ => True

def Honest (o : Oracle) (es : List (Exchange Query.Answer)) : Prop := ∀ e ∈ es, o.Answers e

/-- What can be told of an event: all but its times, and but its diagnostics when nothing is known
of them. -/
def view (o : Oracle) (event : Event) : Event :=
  if o.collect.isSome then event.timeless else event.timeless.withoutDiagnostics

variable {o : Oracle} {α β γ δ σ : Type}

theorem honest_append {es fs : List (Exchange Query.Answer)} :
    o.Honest (es ++ fs) ↔ o.Honest es ∧ o.Honest fs := List.forall_mem_append

theorem honest_cons {e : Exchange Query.Answer} {es : List (Exchange Query.Answer)} :
    o.Honest (e :: es) ↔ o.Answers e ∧ o.Honest es := List.forall_mem_cons

theorem honest_bind {s : Run α} {f : α → Run β} {es : List (Exchange Query.Answer)} {b : β}
    (h : (s >>= f).Runs es b) (hes : o.Honest es) :
    ∃ fs gs a, s.Runs fs a ∧ (f a).Runs gs b ∧ o.Honest fs ∧ o.Honest gs ∧ es = fs ++ gs := by
  obtain ⟨fs, gs, a, hs, hf, rfl⟩ := runs_bind h
  obtain ⟨hfs, hgs⟩ := honest_append.mp hes
  exact ⟨fs, gs, a, hs, hf, hfs, hgs, rfl⟩

theorem answers_unique {q : Query} (hq : q.IsSteady) {a b : q.Answer} (ha : o.Answers ⟨q, a⟩)
    (hb : o.Answers ⟨q, b⟩) : a = b := by
  cases q with
  | exec target command limit | send request limit | connect host port limit =>
    exact ha.trans hb.symm
  | sleep nanos | emit event => rfl
  | sleepForever => exact nomatch a
  | clock | collect request => exact hq.elim

theorem view_timeless {x y : Event} (h : x.timeless = y.timeless) : o.view x = o.view y := by
  rw [view, view, h]

/-- Whatever time does, two runs give related results and report the same. -/
def Agree (o : Oracle) (R : α → β → Prop) (s : Run α) (t : Run β) : Prop :=
  ∀ es fs a b, s.Runs es a → t.Runs fs b → o.Honest es → o.Honest fs →
    R a b ∧ (eventsOf es).map o.view = (eventsOf fs).map o.view

theorem agree_pure {R : α → β → Prop} {a : α} {b : β} (h : R a b) :
    o.Agree R (pure a) (pure b) := by
  intro es fs a' b' hs ht _ _
  obtain ⟨rfl, rfl⟩ := runs_done hs
  obtain ⟨rfl, rfl⟩ := runs_done ht
  exact ⟨h, rfl⟩

theorem Agree.bind {R : α → β → Prop} {S : γ → δ → Prop} {s : Run α} {t : Run β} {f : α → Run γ}
    {g : β → Run δ} (h : o.Agree R s t) (hf : ∀ a b, R a b → o.Agree S (f a) (g b)) :
    o.Agree S (s >>= f) (t >>= g) := by
  intro es fs c d hs ht hes hfs
  obtain ⟨es₁, es₂, a, hs₁, hs₂, hes₁, hes₂, rfl⟩ := honest_bind hs hes
  obtain ⟨fs₁, fs₂, b, ht₁, ht₂, hfs₁, hfs₂, rfl⟩ := honest_bind ht hfs
  obtain ⟨hab, hfirst⟩ := h _ _ _ _ hs₁ ht₁ hes₁ hfs₁
  obtain ⟨hcd, hrest⟩ := hf a b hab _ _ _ _ hs₂ ht₂ hes₂ hfs₂
  refine ⟨hcd, ?_⟩
  rw [eventsOf_append, eventsOf_append, List.map_append, List.map_append, hfirst, hrest]

theorem agree_clock : o.Agree (fun _ _ => True) Run.clock Run.clock := by
  intro es fs a b hs ht _ _
  rw [runs_query hs, runs_query ht]
  exact ⟨trivial, rfl⟩

theorem agree_emit {x y : Event} (h : o.view x = o.view y) :
    o.Agree (fun _ _ => True) (Run.emit x) (Run.emit y) := by
  intro es fs a b hs ht _ _
  rw [eventsOf_emit hs, eventsOf_emit ht, List.map_singleton, List.map_singleton, h]
  exact ⟨trivial, rfl⟩

theorem agree_steady {s : Run α} (h : AsksOnly Query.IsSteady s) : o.Agree Eq s s := by
  intro es fs a b hs ht hes hfs
  induction h generalizing es fs with
  | done c =>
    cases hs
    cases ht
    exact ⟨rfl, rfl⟩
  | @ask q next here rest ih =>
    cases hs with
    | @ask _ _ x es _ hs =>
      cases ht with
      | @ask _ _ y fs _ ht =>
        rw [honest_cons] at hes hfs
        obtain rfl := answers_unique here hes.1 hfs.1
        obtain ⟨hab, hevents⟩ := ih x _ _ hs ht hes.2 hfs.2
        refine ⟨hab, ?_⟩
        rw [← List.singleton_append, ← List.singleton_append (l := fs), eventsOf_append,
          eventsOf_append, List.map_append, List.map_append, hevents]

theorem agree_each {R : σ → σ → Prop} {step : σ → α → Run σ}
    (h : ∀ s t a, R s t → o.Agree R (step s a) (step t a)) {s t : σ} (hst : R s t) (as : List α) :
    o.Agree R (Script.each step s as) (Script.each step t as) := by
  induction as generalizing s t with
  | nil => exact agree_pure hst
  | cons a as ih => exact (h s t a hst).bind fun s' t' hst' => ih hst'

section Waits

variable {probe : Run Bool}

theorem pollFrom_probe {pause : Duration} {deadline left : Nat} {es : List (Exchange Query.Answer)}
    {found : Bool} (h : (pollFrom probe pause deadline left).Runs es found) (hes : o.Honest es) :
    ∃ fs, probe.Runs fs found ∧ o.Honest fs := by
  induction left generalizing es with
  | zero => exact ⟨es, h, hes⟩
  | succ left ih =>
    obtain ⟨fs, gs, first, hprobe, hgs, hfs, hhonest, -⟩ := honest_bind h hes
    cases first with
    | true =>
      obtain ⟨-, rfl⟩ := runs_done hgs
      exact ⟨fs, hprobe, hfs⟩
    | false =>
      obtain ⟨_, ks, now, _, hks, _, hhonest, _⟩ := honest_bind hgs hhonest
      -- When time is up, the last probe is the first one.
      split at hks
      · obtain ⟨-, rfl⟩ := runs_done hks
        exact ⟨fs, hprobe, hfs⟩
      · obtain ⟨_, ls, _, _, hagain, _, hls, _⟩ := honest_bind hks hhonest
        exact ih hagain hls

theorem agree_poll (hprobe : AsksOnly Query.IsErrand probe) (limit pause : Duration) :
    o.Agree Eq (poll probe limit pause) (poll probe limit pause) := by
  have hquiet : AsksOnly Query.IsQuiet (poll probe limit pause) :=
    poll_asksOnly (fun _ => Query.IsErrand.isQuiet) trivial
      (hprobe.mono fun _ => Query.IsErrand.isQuiet) limit pause
  intro es fs a b hs ht hes hfs
  rw [eventsOf_quiet hquiet hs, eventsOf_quiet hquiet ht]
  obtain ⟨_, es₁, _, _, hs₁, _, hes₁, _⟩ := honest_bind hs hes
  obtain ⟨_, fs₁, _, _, ht₁, _, hfs₁, _⟩ := honest_bind ht hfs
  obtain ⟨es₂, hs₂, hes₂⟩ := pollFrom_probe hs₁ hes₁
  obtain ⟨fs₂, ht₂, hfs₂⟩ := pollFrom_probe ht₁ hfs₁
  have hsteady := hprobe.mono fun _ => Query.IsErrand.isSteady
  exact ⟨(agree_steady hsteady _ _ _ _ hs₂ ht₂ hes₂ hfs₂).1, rfl⟩

end Waits

section Attempts

variable {once : σ → Run (Option String × σ)}

theorem agree_attempt (honce : ∀ s, o.Agree Eq (once s) (once s)) (number : Nat) (s : σ) :
    o.Agree (fun x y => x.1.timeless = y.1.timeless ∧ x.2 = y.2)
      (RetryPolicy.attempt once number s) (RetryPolicy.attempt once number s) := by
  refine agree_clock.bind fun start start' _ => ?_
  refine (honce s).bind fun result _ heq => ?_
  subst heq
  exact agree_clock.bind fun stop stop' _ => agree_pure ⟨rfl, rfl⟩

theorem agree_pause (p : RetryPolicy) (n : Nat) : o.Agree Eq (p.pause n) (p.pause n) :=
  agree_steady (p.pause_asksOnly (fun _ => trivial) trivial n)

theorem agree_tryFrom (p : RetryPolicy) (honce : ∀ s, o.Agree Eq (once s) (once s))
    (number left : Nat) (s : σ) :
    o.Agree (fun x y => x.1.passed = y.1.passed ∧ x.1.finalError = y.1.finalError ∧
        x.1.attempts.map Attempt.timeless = y.1.attempts.map Attempt.timeless ∧ x.2 = y.2)
      (p.tryFrom once number left s) (p.tryFrom once number left s) := by
  induction left generalizing number s with
  | zero => exact agree_pure ⟨rfl, rfl, rfl, rfl⟩
  | succ left ih =>
    refine (agree_attempt honce number s).bind fun (a, s₁) (b, s₂) ⟨hab, hs⟩ => ?_
    obtain rfl : s₁ = s₂ := hs
    have hpassed : a.passed = b.passed := (congrArg Attempt.passed hab :)
    have herror : a.error = b.error := (congrArg Attempt.error hab :)
    simp only [hpassed]
    split
    · exact agree_pure ⟨rfl, rfl, by simpa using hab, rfl⟩
    · split
      · exact agree_pure ⟨rfl, herror, by simpa using hab, rfl⟩
      · refine (agree_pause p number).bind fun _ _ _ => ?_
        refine (ih (number + 1) s₁).bind fun (x, t) (y, u) ⟨hx, he, hmap, ht⟩ => ?_
        exact agree_pure ⟨hx, he, by simpa using ⟨hab, hmap⟩, ht⟩

theorem agree_tryCase [Libraries] (r : Runner) (suite : Suite) (settings : StepSettings)
    (case : Step) (ctx : Context) :
    o.Agree (fun x y => x.1.1 = y.1.1 ∧
        x.1.2.map (·.map Attempt.timeless) = y.1.2.map (·.map Attempt.timeless) ∧ x.2 = y.2)
      (r.tryCase suite settings case ctx) (r.tryCase suite settings case ctx) := by
  have honce : ∀ ctx, o.Agree Eq (case.runOnce settings ctx) (case.runOnce settings ctx) :=
    fun ctx => agree_steady ((case.runOnce_asksOnly settings ctx).mono fun _ =>
      Query.IsErrand.isSteady)
  unfold Runner.tryCase
  cases r.policyFor suite case with
  | none =>
    refine (honce ctx).bind fun result _ heq => ?_
    subst heq
    exact agree_pure ⟨rfl, rfl, rfl⟩
  | some p =>
    refine (agree_tryFrom p honce _ _ ctx).bind fun (x, t) (y, u) ⟨hx, he, hmap, ht⟩ => ?_
    refine agree_pure ⟨?_, congrArg some hmap, ht⟩
    dsimp only at hx he ⊢
    rw [hx, he]

end Attempts

section Suites

variable {suite : Suite} {settings : StepSettings}

theorem agree_log (level : LogLevel) (message : String) :
    o.Agree Eq (suite.log level message) (suite.log level message) :=
  agree_steady (asksOnly_query trivial)

theorem agree_runOnce [Libraries] (s : Step) (settings : StepSettings) (ctx : Context) :
    o.Agree Eq (s.runOnce settings ctx) (s.runOnce settings ctx) :=
  agree_steady ((s.runOnce_asksOnly settings ctx).mono fun _ => Query.IsErrand.isSteady)

theorem agree_setup [Libraries] (entry : SetupEntry) (ctx : Context) :
    o.Agree Eq (entry.run suite settings ctx) (entry.run suite settings ctx) := by
  cases entry with
  | waitForHealth w =>
    have hprobe := (w.probe_asksOnly settings.baseUrl).mono fun _ => Query.IsProbe.isErrand
    refine (agree_poll hprobe w.limit w.pause).bind fun healthy _ heq => ?_
    subst heq
    cases healthy with
    | true => exact agree_pure rfl
    | false => exact (agree_log _ _).bind fun _ _ _ => agree_pure rfl
  | waitForPort w =>
    have hprobe := w.probe_asksOnly.mono fun _ => Query.IsProbe.isErrand
    refine (agree_poll hprobe w.limit PortWait.pollPause).bind fun opened _ heq => ?_
    subst heq
    cases opened with
    | true => exact agree_pure rfl
    | false => exact (agree_log _ _).bind fun _ _ _ => agree_pure rfl
  | delay d => exact agree_steady (asksOnly_bind (asksOnly_query trivial) fun _ => asksOnly_pure _)
  | step s =>
    refine (agree_runOnce s settings ctx).bind fun (error, ctx') _ heq => ?_
    subst heq
    cases error with
    | none => exact agree_pure rfl
    | some e => exact (agree_log _ _).bind fun _ _ _ => agree_pure rfl

theorem agree_teardown [Libraries] (s : Step) (ctx : Context) :
    o.Agree Eq (s.runTeardown suite settings ctx) (s.runTeardown suite settings ctx) := by
  refine (agree_runOnce s settings ctx).bind fun (error, ctx') _ heq => ?_
  subst heq
  cases error with
  | none => exact agree_pure rfl
  | some e =>
    dsimp only
    split
    · exact (agree_log _ _).bind fun _ _ _ => agree_pure rfl
    · exact agree_pure rfl

theorem agree_collect (request : DiagnosticsRequest) :
    o.Agree (fun x y => o.collect.isSome → x = y) (Run.collect request) (Run.collect request) := by
  intro es fs x y hs ht hes hfs
  obtain rfl := runs_query hs
  obtain rfl := runs_query ht
  refine ⟨fun hsome => ?_, rfl⟩
  obtain ⟨collect, hcollect⟩ := Option.isSome_iff_exists.mp hsome
  have hx : x = collect request := (honest_cons.mp hes).1 collect hcollect
  have hy : y = collect request := (honest_cons.mp hfs).1 collect hcollect
  rw [hx, hy]

theorem agree_diagnose (r : Runner) (options : RunOptions) :
    o.Agree (fun x y => o.collect.isSome → x = y) (r.diagnose options) (r.diagnose options) := by
  unfold Runner.diagnose
  split
  · refine (agree_collect _).bind fun x y hxy => ?_
    cases x with
    | ok report =>
      cases y with
      | ok report' => exact agree_pure fun h => congrArg some (Except.ok.inj (hxy h))
      | error e => exact agree_pure fun h => nomatch hxy h
    | error e =>
      cases y with
      | ok report' => exact agree_pure fun h => nomatch hxy h
      | error e' => exact agree_pure fun _ => rfl
  · exact agree_pure fun _ => rfl

theorem view_caseFail {name case error : String} {d d' : Nat}
    {report report' : Option DiagnosticsReport} {attempts attempts' : Option (List Attempt)}
    (hreport : o.collect.isSome → report = report')
    (hattempts : attempts.map (·.map Attempt.timeless) = attempts'.map (·.map Attempt.timeless)) :
    o.view (.caseFail name case d error report attempts) =
      o.view (.caseFail name case d' error report' attempts') := by
  unfold view
  split
  · next h => simp only [Event.timeless, hattempts, hreport h]
  · simp only [Event.timeless, Event.withoutDiagnostics, hattempts]

theorem agree_runCase [Libraries] (r : Runner) (options : RunOptions) (state : Tally × Context)
    (case : Step) :
    o.Agree Eq (r.runCase suite options settings state case)
      (r.runCase suite options settings state case) := by
  obtain ⟨tally, ctx⟩ := state
  simp only [Runner.runCase]
  cases case.skipReason options.filter with
  | some reason => exact (agree_emit rfl).bind fun _ _ _ => agree_pure rfl
  | none =>
    refine (agree_emit rfl).bind fun _ _ _ => ?_
    refine agree_clock.bind fun start start' _ => ?_
    refine (agree_tryCase r suite settings case ctx).bind ?_
    rintro ⟨⟨error, attempts⟩, ctx₁⟩ ⟨⟨error', attempts'⟩, ctx₁'⟩ ⟨herror, hattempts, hctx⟩
    obtain rfl : error = error' := herror
    obtain rfl : ctx₁ = ctx₁' := hctx
    refine agree_clock.bind fun stop stop' _ => ?_
    cases error with
    | none =>
      have hview : (Event.casePass suite.name case.displayName (stop - start) attempts).timeless =
          (Event.casePass suite.name case.displayName (stop' - start') attempts').timeless := by
        simp only [Event.timeless, hattempts]
      exact (agree_emit (view_timeless hview)).bind fun _ _ _ => agree_pure rfl
    | some e =>
      refine (agree_diagnose r options).bind fun report report' hreport => ?_
      exact (agree_emit (view_caseFail hreport hattempts)).bind fun _ _ _ => agree_pure rfl

/-- A suite that is run once more reports the same, but for the times, and leaves the same
context. -/
theorem agree_runSuite [Libraries] (r : Runner) (suite : Suite) (options : RunOptions)
    (ctx : Context) :
    o.Agree (fun x y => x.1.timeless = y.1.timeless ∧ x.2 = y.2) (r.runSuite suite options ctx)
      (r.runSuite suite options ctx) := by
  unfold Runner.runSuite
  refine agree_clock.bind fun start start' _ => ?_
  refine (agree_emit rfl).bind fun _ _ _ => ?_
  refine (agree_each (R := Eq) ?_ rfl _).bind fun ctx₁ _ heq => ?_
  · rintro ctx _ entry rfl
    exact agree_setup entry ctx
  subst heq
  refine (agree_each (R := Eq) ?_ rfl _).bind fun (tally, ctx₂) _ heq => ?_
  · rintro state _ case rfl
    exact agree_runCase r options state case
  subst heq
  refine (agree_each (R := Eq) ?_ rfl _).bind fun ctx₃ _ heq => ?_
  · rintro ctx _ step rfl
    exact agree_teardown step ctx
  subst heq
  refine agree_clock.bind fun stop stop' _ => ?_
  refine (agree_emit ?_).bind fun _ _ _ => agree_pure ⟨rfl, rfl⟩
  exact view_timeless rfl

end Suites

end Oracle

end Assay

import Assay.Proofs.Runner.Events
import Assay.Runner.Suite

namespace Assay

open Script (AsksOnly asksOnly_pure asksOnly_query asksOnly_bind asksOnly_each)

/-- No delay between the attempts at a case is longer than can be waited. -/
def RetryPolicy.Calm (p : RetryPolicy) : Prop :=
  ∀ n, 1 ≤ n → n < p.maxAttempts → (p.delayAfter? n).isSome

/-- The policies by which the cases of a suite are tried again are calm. Those of cases that are
left out do not matter. -/
def Runner.Calm (r : Runner) (suite : Suite) (options : RunOptions) : Prop :=
  ∀ case ∈ suite.cases, case.skipReason options.filter = none →
    ∀ p, r.policyFor suite case = some p → p.Calm

section Waits

variable {P : Query → Prop}

theorem pollFrom_asksOnly {probe : Run Bool} (herrand : ∀ q, q.IsErrand → P q)
    (hclock : P .clock) (hprobe : AsksOnly P probe) (pause : Duration) (deadline left : Nat) :
    AsksOnly P (pollFrom probe pause deadline left) := by
  induction left with
  | zero => exact hprobe
  | succ left ih =>
    refine asksOnly_bind hprobe fun found => ?_
    split
    · exact asksOnly_pure _
    · refine asksOnly_bind (asksOnly_query hclock) fun now => ?_
      split
      · exact asksOnly_pure _
      · exact asksOnly_bind (asksOnly_query (herrand _ trivial)) fun _ => ih

theorem poll_asksOnly {probe : Run Bool} (herrand : ∀ q, q.IsErrand → P q) (hclock : P .clock)
    (hprobe : AsksOnly P probe) (limit pause : Duration) : AsksOnly P (poll probe limit pause) :=
  asksOnly_bind (asksOnly_query hclock) fun _ => pollFrom_asksOnly herrand hclock hprobe ..

theorem HealthWait.probe_asksOnly [Libraries] (w : HealthWait) (base : String) :
    AsksOnly Query.IsProbe (w.probe base) := by
  unfold HealthWait.probe
  split
  · refine asksOnly_bind (asksOnly_query trivial) fun reply => ?_
    split <;> exact asksOnly_pure _
  · exact asksOnly_pure _

theorem PortWait.probe_asksOnly (w : PortWait) : AsksOnly Query.IsProbe w.probe :=
  asksOnly_query trivial

theorem HealthWait.run_asksOnly [Libraries] (herrand : ∀ q, q.IsErrand → P q) (hclock : P .clock)
    (w : HealthWait) (base : String) : AsksOnly P (w.run base) := by
  have hprobe := (w.probe_asksOnly base).mono fun q hq => herrand q hq.isErrand
  unfold HealthWait.run
  exact poll_asksOnly herrand hclock hprobe w.limit w.pause

theorem PortWait.run_asksOnly (herrand : ∀ q, q.IsErrand → P q) (hclock : P .clock)
    (w : PortWait) : AsksOnly P w.run := by
  have hprobe := w.probe_asksOnly.mono fun q hq => herrand q hq.isErrand
  unfold PortWait.run
  exact poll_asksOnly herrand hclock hprobe w.limit PortWait.pollPause

end Waits

section Attempts

variable {P : Query → Prop} {σ : Type}

theorem RetryPolicy.attempt_asksOnly {once : σ → Run (Option String × σ)} (hclock : P .clock)
    (honce : ∀ s, AsksOnly P (once s)) (number : Nat) (s : σ) :
    AsksOnly P (RetryPolicy.attempt once number s) := by
  refine asksOnly_bind (asksOnly_query hclock) fun start => ?_
  refine asksOnly_bind (honce s) fun result => ?_
  exact asksOnly_bind (asksOnly_query hclock) fun stop => asksOnly_pure _

theorem RetryPolicy.tryFrom_asksOnly (p : RetryPolicy) {once : σ → Run (Option String × σ)}
    (hclock : P .clock) (honce : ∀ s, AsksOnly P (once s)) (number left : Nat)
    (hpause : ∀ n, number ≤ n → n + 1 < number + left → AsksOnly P (p.pause n)) (s : σ) :
    AsksOnly P (p.tryFrom once number left s) := by
  induction left generalizing number s with
  | zero => exact asksOnly_pure _
  | succ left ih =>
    refine asksOnly_bind (attempt_asksOnly hclock honce number s) fun result => ?_
    dsimp only
    split
    · exact asksOnly_pure _
    · split
      · exact asksOnly_pure _
      · refine asksOnly_bind (hpause number (by omega) (by omega)) fun _ => ?_
        refine asksOnly_bind (ih (number + 1) ?_ _) fun rest => asksOnly_pure _
        exact fun n hn hlast => hpause n (by omega) (by omega)

theorem Runner.tryCase_asksOnly [Libraries] (r : Runner) (suite : Suite) (settings : StepSettings)
    (case : Step) (ctx : Context) (herrand : ∀ q, q.IsErrand → P q) (hclock : P .clock)
    (hpause : ∀ p, r.policyFor suite case = some p →
      ∀ n, 1 ≤ n → n < p.maxAttempts → AsksOnly P (p.pause n)) :
    AsksOnly P (r.tryCase suite settings case ctx) := by
  have honce : ∀ ctx, AsksOnly P (case.runOnce settings ctx) := fun ctx =>
    (case.runOnce_asksOnly settings ctx).mono herrand
  unfold Runner.tryCase
  cases hp : r.policyFor suite case with
  | none => exact asksOnly_bind (honce ctx) fun result => asksOnly_pure _
  | some p =>
    refine asksOnly_bind ?_ fun result => asksOnly_pure _
    exact p.tryFrom_asksOnly hclock honce _ _ (fun n hn hlast => hpause p hp n hn (by omega)) ctx

theorem RetryPolicy.pause_asksOnly (p : RetryPolicy) (hsleep : ∀ nanos, P (.sleep nanos))
    (hforever : P .sleepForever) (n : Nat) : AsksOnly P (p.pause n) := by
  unfold RetryPolicy.pause
  split
  · exact asksOnly_query (hsleep _)
  · exact .ask hforever fun r => Empty.elim r

theorem RetryPolicy.pause_isQuiet (p : RetryPolicy) (n : Nat) :
    AsksOnly Query.IsQuiet (p.pause n) := p.pause_asksOnly (fun _ => trivial) trivial n

theorem RetryPolicy.Calm.pause_hasAnswer {p : RetryPolicy} (h : p.Calm) {n : Nat} (hn : 1 ≤ n)
    (hlast : n < p.maxAttempts) : AsksOnly Query.HasAnswer (p.pause n) := by
  obtain ⟨nanos, hnanos⟩ := Option.isSome_iff_exists.mp (h n hn hlast)
  simp only [RetryPolicy.pause, hnanos]
  exact asksOnly_query trivial

end Attempts

/-- What a predicate on questions must hold of for a suite to be run by them up to its end. -/
structure Query.Allows (P : Query → Prop) (suite : String) : Prop where
  errand : ∀ q, q.IsErrand → P q
  clock : P .clock
  collect : ∀ request, P (.collect request)
  report : ∀ event : Event, event.suite = suite → event.summary? = none → P (.emit event)

section Parts

variable {P : Query → Prop} {suite : Suite}

theorem SetupEntry.run_asksOnly [Libraries] (herrand : ∀ q, q.IsErrand → P q) (hclock : P .clock)
    (hlog : ∀ level message, P (.emit (.log suite.name level message))) (settings : StepSettings)
    (ctx : Context) (entry : SetupEntry) : AsksOnly P (entry.run suite settings ctx) := by
  have htells : ∀ level message, AsksOnly P (suite.log level message) :=
    fun _ _ => Run.emit_asksOnly (hlog _ _)
  cases entry with
  | waitForHealth w =>
    refine asksOnly_bind (w.run_asksOnly herrand hclock _) ?_
    rintro (_ | _)
    · exact asksOnly_bind (htells _ _) fun _ => asksOnly_pure _
    · exact asksOnly_pure _
  | waitForPort w =>
    refine asksOnly_bind (w.run_asksOnly herrand hclock) ?_
    rintro (_ | _)
    · exact asksOnly_bind (htells _ _) fun _ => asksOnly_pure _
    · exact asksOnly_pure _
  | delay d =>
    exact asksOnly_bind (Run.sleep_asksOnly (herrand _ trivial)) fun _ => asksOnly_pure _
  | step s =>
    refine asksOnly_bind ((s.runOnce_asksOnly settings ctx).mono herrand) ?_
    rintro ⟨_ | e, ctx'⟩
    · exact asksOnly_pure _
    · exact asksOnly_bind (htells _ _) fun _ => asksOnly_pure _

theorem Step.runTeardown_asksOnly [Libraries] (herrand : ∀ q, q.IsErrand → P q)
    (hlog : ∀ level message, P (.emit (.log suite.name level message))) (settings : StepSettings)
    (ctx : Context) (s : Step) : AsksOnly P (s.runTeardown suite settings ctx) := by
  refine asksOnly_bind ((s.runOnce_asksOnly settings ctx).mono herrand) ?_
  rintro ⟨_ | e, ctx'⟩
  · exact asksOnly_pure _
  · dsimp only
    split
    · exact asksOnly_bind (Run.emit_asksOnly (hlog _ _)) fun _ => asksOnly_pure _
    · exact asksOnly_pure _

theorem Runner.diagnose_asksOnly (hcollect : ∀ request, P (.collect request)) (r : Runner)
    (options : RunOptions) : AsksOnly P (r.diagnose options) := by
  unfold diagnose
  split
  · refine asksOnly_bind (asksOnly_query (hcollect _)) fun report => ?_
    split <;> exact asksOnly_pure _
  · exact asksOnly_pure _

/-- What may be reported of a case. -/
inductive Step.Reports (suite : String) (filter : Option String) (case : Step) : Event → Prop
  | skip {reason : String} (h : case.skipReason filter = some reason) :
      Reports suite filter case (.caseSkip suite case.displayName reason)
  | start (h : case.skipReason filter = none) :
      Reports suite filter case (.caseStart suite case.displayName)
  | pass (h : case.skipReason filter = none) (durationMs : Nat)
      (attempts : Option (List Attempt)) :
      Reports suite filter case (.casePass suite case.displayName durationMs attempts)
  | fail (h : case.skipReason filter = none) (durationMs : Nat) (error : String)
      (report : Option DiagnosticsReport) (attempts : Option (List Attempt)) :
      Reports suite filter case
        (.caseFail suite case.displayName durationMs error report attempts)

theorem Step.Reports.suite_eq {name : String} {filter : Option String} {case : Step}
    {event : Event} (h : case.Reports name filter event) : event.suite = name := by
  cases h <;> rfl

theorem Step.Reports.summary?_eq {name : String} {filter : Option String} {case : Step}
    {event : Event} (h : case.Reports name filter event) : event.summary? = none := by
  cases h <;> rfl

theorem Runner.runCase_asksOnly [Libraries] {r : Runner} {options : RunOptions} {case : Step}
    (herrand : ∀ q, q.IsErrand → P q) (hclock : P .clock)
    (hcollect : ∀ request, P (.collect request))
    (hreport : ∀ event, case.Reports suite.name options.filter event → P (.emit event))
    (hpause : case.skipReason options.filter = none → ∀ p, r.policyFor suite case = some p →
      ∀ n, 1 ≤ n → n < p.maxAttempts → AsksOnly P (p.pause n))
    (settings : StepSettings) (state : Tally × Context) :
    AsksOnly P (r.runCase suite options settings state case) := by
  obtain ⟨tally, ctx⟩ := state
  have htells : ∀ event, case.Reports suite.name options.filter event →
      AsksOnly P (Run.emit event) := fun event h => Run.emit_asksOnly (hreport event h)
  simp only [runCase]
  cases hskip : case.skipReason options.filter with
  | some reason => exact asksOnly_bind (htells _ (.skip hskip)) fun _ => asksOnly_pure _
  | none =>
    refine asksOnly_bind (htells _ (.start hskip)) fun _ => ?_
    refine asksOnly_bind (Run.clock_asksOnly hclock) fun start => ?_
    refine asksOnly_bind
      (r.tryCase_asksOnly suite settings case ctx herrand hclock (hpause hskip)) ?_
    rintro ⟨⟨error, attempts⟩, ctx'⟩
    refine asksOnly_bind (Run.clock_asksOnly hclock) fun stop => ?_
    cases error with
    | none => exact asksOnly_bind (htells _ (.pass hskip _ _)) fun _ => asksOnly_pure _
    | some e =>
      refine asksOnly_bind (diagnose_asksOnly hcollect r options) fun report => ?_
      exact asksOnly_bind (htells _ (.fail hskip _ _ _ _)) fun _ => asksOnly_pure _

end Parts

namespace Runner

variable [Libraries]

theorem tryCase_isQuiet (r : Runner) (suite : Suite) (settings : StepSettings) (case : Step)
    (ctx : Context) : AsksOnly Query.IsQuiet (r.tryCase suite settings case ctx) :=
  r.tryCase_asksOnly suite settings case ctx (fun _ => Query.IsErrand.isQuiet) trivial
    fun p _ n _ _ => p.pause_isQuiet n

/-- What is done of a suite before its end is told: when it began, its counts, and the context. -/
def work (r : Runner) (suite : Suite) (options : RunOptions) (ctx : Context) :
    Run (Nat × Tally × Context) := do
  let start ← Run.clock
  Run.emit (.suiteStart suite.name suite.description suite.cases.length)
  let settings := suite.settings options
  let ctx := ctx.defineAll suite.vars
  let ctx ← Script.each (fun ctx e => e.run suite settings ctx) ctx suite.setup
  let (tally, ctx) ← Script.each (r.runCase suite options settings) ({}, ctx) suite.cases
  let ctx ← Script.each (fun ctx s => s.runTeardown suite settings ctx) ctx suite.teardown
  pure (start, tally, ctx)

theorem runSuite_eq (r : Runner) (suite : Suite) (options : RunOptions) (ctx : Context) :
    r.runSuite suite options ctx = (do
      let (start, tally, ctx) ← r.work suite options ctx
      let stop ← Run.clock
      Run.emit (.suiteEnd suite.name tally.passed tally.failed tally.skipped (stop - start))
      pure (⟨suite.name, tally.passed, tally.failed, tally.skipped, stop - start⟩, ctx)) := by
  simp only [runSuite, work, Script.bind_assoc, Script.pure_bind]

theorem work_asksOnly {P : Query → Prop} {r : Runner} {suite : Suite} {options : RunOptions}
    (h : Query.Allows P suite.name)
    (hpause : ∀ case ∈ suite.cases, case.skipReason options.filter = none →
      ∀ p, r.policyFor suite case = some p →
        ∀ n, 1 ≤ n → n < p.maxAttempts → AsksOnly P (p.pause n))
    (ctx : Context) : AsksOnly P (r.work suite options ctx) := by
  refine asksOnly_bind (Run.clock_asksOnly h.clock) fun start => ?_
  refine asksOnly_bind (Run.emit_asksOnly (h.report _ rfl rfl)) fun _ => ?_
  refine asksOnly_bind (asksOnly_each _ fun ctx e _ => ?_) fun ctx₁ => ?_
  · exact SetupEntry.run_asksOnly h.errand h.clock (fun _ _ => h.report _ rfl rfl) _ ctx e
  refine asksOnly_bind (asksOnly_each _ fun state case hcase => ?_) fun state => ?_
  · refine runCase_asksOnly h.errand h.clock h.collect ?_ (hpause case hcase) _ state
    exact fun _ htells => h.report _ htells.suite_eq htells.summary?_eq
  refine asksOnly_bind (asksOnly_each _ fun ctx s _ => ?_) fun ctx₂ => asksOnly_pure _
  exact Step.runTeardown_asksOnly h.errand (fun _ _ => h.report _ rfl rfl) _ ctx s

/-- Without a calm policy a suite may come to a wait without end, but it says nothing that is not
its own, and nothing of its end before it has come to it. -/
theorem work_tells (r : Runner) (suite : Suite) (options : RunOptions) (ctx : Context) :
    AsksOnly (fun q => ∀ event, q.event? = some event →
      event.suite = suite.name ∧ event.summary? = none) (r.work suite options ctx) := by
  have hquiet : ∀ q : Query, q.IsQuiet → ∀ event, q.event? = some event →
      event.suite = suite.name ∧ event.summary? = none := by
    intro q hq event hevent
    rw [hq.event?] at hevent
    cases hevent
  refine work_asksOnly
    ⟨fun q hq => hquiet q hq.isQuiet, hquiet _ trivial, fun _ => hquiet _ trivial, ?_⟩
    (fun case _ _ p _ n _ _ => (p.pause_isQuiet n).mono hquiet) ctx
  intro event hsuite hend event' heq
  cases heq
  exact ⟨hsuite, hend⟩

theorem work_hasAnswer {r : Runner} {suite : Suite} {options : RunOptions}
    (calm : r.Calm suite options) (ctx : Context) :
    AsksOnly Query.HasAnswer (r.work suite options ctx) :=
  work_asksOnly
    ⟨fun _ => Query.IsErrand.hasAnswer, trivial, fun _ => trivial, fun _ _ _ => trivial⟩
    (fun case hcase hskip p hp _ hn hlast => (calm case hcase hskip p hp).pause_hasAnswer hn hlast)
    ctx

theorem runSuite_hasAnswer {r : Runner} {suite : Suite} {options : RunOptions}
    (calm : r.Calm suite options) (ctx : Context) :
    AsksOnly Query.HasAnswer (r.runSuite suite options ctx) := by
  rw [runSuite_eq]
  refine asksOnly_bind (work_hasAnswer calm ctx) fun state => ?_
  refine asksOnly_bind (Run.clock_asksOnly trivial) fun stop => ?_
  exact asksOnly_bind (Run.emit_asksOnly trivial) fun _ => asksOnly_pure _

end Runner

end Assay

import Assay.Proofs.Runner.Relay

namespace Assay

open Script (Exchange asksOnly_each)

/-- A case is skipped when it is marked so, or when its name does not contain the filter. -/
def Step.isSkipped (filter : Option String) (case : Step) : Bool :=
  case.skip || filter.any fun f => !Text.contains case.displayName f

theorem Step.isSkipped_eq (filter : Option String) (case : Step) :
    case.isSkipped filter = (case.skipReason filter).isSome := by
  unfold isSkipped skipReason
  cases case.skip with
  | true => rfl
  | false =>
    cases filter with
    | none => rfl
    | some f => cases h : Text.contains case.displayName f <;> simp [h]

/-- The suite without the cases that are skipped under a filter. -/
def Suite.withoutSkipped (suite : Suite) (filter : Option String) : Suite :=
  { suite with cases := suite.cases.filter fun case => !case.isSkipped filter }

/-- An event as it is when no case is skipped and so many are left. -/
def Event.withoutSkips (cases : Nat) : Event → Option Event
  | suiteStart suite description _ => some (suiteStart suite description cases)
  | caseSkip .. => none
  | suiteEnd suite passed failed _ durationMs => some (suiteEnd suite passed failed 0 durationMs)
  | e => some e

def Summary.withoutSkips (s : Summary) : Summary := { s with skipped := 0 }

def Tally.withoutSkips (t : Tally) : Tally := { t with skipped := 0 }

def SuiteAccount.withoutSkips (cases : Nat) (a : SuiteAccount) : SuiteAccount :=
  { a with
    summary := a.summary.withoutSkips
    events := a.events.filterMap (Event.withoutSkips cases) }

namespace Runner

variable {r : Runner} {suite : Suite} {options : RunOptions} {settings : StepSettings} {n : Nat}

theorem runCase_withoutSkips [Libraries] {case : Step} (h : case.skipReason options.filter = none)
    (tally : Tally) (ctx : Context) :
    (r.runCase suite options settings (tally, ctx) case >>= fun s =>
        pure (s.1.withoutSkips, s.2)) =
      r.runCase suite options settings (tally.withoutSkips, ctx) case := by
  simp only [runCase, h, Script.bind_assoc]
  congr 1
  funext _
  congr 1
  funext start
  congr 1
  funext result
  congr 1
  funext stop
  obtain ⟨⟨error, attempts⟩, ctx'⟩ := result
  cases error with
  | none => rfl
  | some e => exact Script.bind_assoc _ _ _

theorem withoutSkips_quiet {q : Query} (h : q.IsQuiet) :
    ∀ e, q.event? = some e → Event.withoutSkips n e = some e := by
  rw [h.event?]
  nofun

theorem relay_runCase [Libraries] {case : Step} (h : case.skipReason options.filter = none)
    (state : Tally × Context) :
    Run.relay (Event.withoutSkips n) (r.runCase suite options settings state case) =
      r.runCase suite options settings state case := by
  refine Run.relay_eq (runCase_asksOnly (fun q hq => withoutSkips_quiet hq.isQuiet)
    (withoutSkips_quiet trivial) (fun _ => withoutSkips_quiet trivial) ?_
    (fun _ p _ m _ _ => (p.pause_isQuiet m).mono fun _ => withoutSkips_quiet) settings state)
  rintro event hevent _ ⟨⟩
  cases hevent with
  | skip hskip => rw [h] at hskip; cases hskip
  | _ => rfl

theorem relay_runCases [Libraries] (n : Nat) (cases : List Step) (tally : Tally) (ctx : Context) :
    (Run.relay (Event.withoutSkips n)
        (Script.each (r.runCase suite options settings) (tally, ctx) cases) >>= fun s =>
      pure (s.1.withoutSkips, s.2)) =
    Script.each (r.runCase suite options settings) (tally.withoutSkips, ctx)
      (cases.filter fun case => !case.isSkipped options.filter) := by
  induction cases generalizing tally ctx with
  | nil => rfl
  | cons case cases ih =>
    rw [Script.each, Run.relay_bind]
    cases hskip : case.skipReason options.filter with
    | some reason =>
      rw [List.filter_cons_of_neg (by simp [Step.isSkipped_eq, hskip])]
      simp only [runCase, hskip]
      exact ih { tally with skipped := tally.skipped + 1 } ctx
    | none =>
      rw [List.filter_cons_of_pos (by simp [Step.isSkipped_eq, hskip]), relay_runCase hskip,
        Script.each, ← runCase_withoutSkips hskip, Script.bind_assoc, Script.bind_assoc]
      congr 1
      funext s
      exact ih s.1 s.2

theorem withoutSkips_log {suite : String} {level : LogLevel} {message : String} :
    ∀ e, (Query.emit (.log suite level message)).event? = some e →
      Event.withoutSkips n e = some e := by
  rintro _ ⟨⟩
  rfl

variable [Libraries]

theorem relay_setup (ctx : Context) (entries : List SetupEntry) :
    Run.relay (Event.withoutSkips n)
        (Script.each (fun ctx e => e.run suite settings ctx) ctx entries) =
      Script.each (fun ctx e => e.run suite settings ctx) ctx entries :=
  Run.relay_eq <| asksOnly_each ctx fun ctx entry _ =>
    entry.run_asksOnly (fun _ hq => withoutSkips_quiet hq.isQuiet) (withoutSkips_quiet trivial)
      (fun _ _ => withoutSkips_log) settings ctx

theorem relay_teardown (ctx : Context) (steps : List Step) :
    Run.relay (Event.withoutSkips n)
        (Script.each (fun ctx s => s.runTeardown suite settings ctx) ctx steps) =
      Script.each (fun ctx s => s.runTeardown suite settings ctx) ctx steps :=
  Run.relay_eq <| asksOnly_each ctx fun ctx step _ =>
    step.runTeardown_asksOnly (fun _ hq => withoutSkips_quiet hq.isQuiet)
      (fun _ _ => withoutSkips_log) settings ctx

/-- Running the suite without its skipped cases is running the suite and keeping silent about
them. -/
theorem relay_runSuite (r : Runner) (suite : Suite) (options : RunOptions) (ctx : Context) :
    (Run.relay (Event.withoutSkips (suite.withoutSkipped options.filter).cases.length)
        (r.runSuite suite options ctx) >>= fun x => pure (x.1.withoutSkips, x.2)) =
      r.runSuite (suite.withoutSkipped options.filter) options ctx := by
  have hclock : ∀ n, Run.relay (Event.withoutSkips n) Run.clock = Run.clock := fun _ => rfl
  unfold runSuite
  simp only [Run.relay_bind, Script.bind_assoc, relay_setup, relay_teardown, hclock]
  refine congrArg (Script.bind _) (funext fun start => ?_)
  refine congrArg (Script.bind (Run.emit _)) (funext fun _ => ?_)
  refine congrArg (Script.bind _) (funext fun ctx₁ => ?_)
  -- The cases that are left count the same, and after them nothing depends on the skipped ones.
  refine Eq.trans ?_ (congrArg (· >>= _)
    (relay_runCases (suite.withoutSkipped options.filter).cases.length suite.cases {} ctx₁))
  rw [Script.bind_assoc]
  rfl

theorem account_withoutSkipped {τ : Type} {respond : Responder Query.Answer τ}
    (deaf : respond.Deaf) (r : Runner) (suite : Suite) (options : RunOptions) (ctx : Context)
    (now : Nat) (w : τ) :
    r.account (suite.withoutSkipped options.filter) options ctx respond now w =
      (r.account suite options ctx respond now w).map
        (SuiteAccount.withoutSkips (suite.withoutSkipped options.filter).cases.length) := by
  unfold account
  rw [← relay_runSuite, Script.recorded_bind, Run.recorded_relay deaf, Option.map_bind,
    Option.bind_map, Option.map_map]
  cases (r.runSuite suite options ctx).recorded respond now w with
  | none => rfl
  | some x =>
    simp [SuiteAccount.withoutSkips, callsOf_relayed, eventsOf_relayed]

/-- Skipped cases are inert. Whatever is answered, the runs of a suite without them are those of the
whole suite, in which they are only reported and counted. So with collaborators who do not look at
the time, not even a time tells the two apart. -/
theorem skipped_inert (r : Runner) (suite : Suite) (options : RunOptions) (ctx : Context) :
    (∀ es summary left,
      (r.runSuite (suite.withoutSkipped options.filter) options ctx).Runs es (summary, left) ↔
        ∃ fs whole, (r.runSuite suite options ctx).Runs fs (whole, left) ∧
          es = fs.filterMap (Run.relayed
            (Event.withoutSkips (suite.withoutSkipped options.filter).cases.length)) ∧
          summary = whole.withoutSkips) ∧
    ∀ (σ κ : Type) (c : Collaborators σ) (d : Option (Examiner κ)) (now : Nat) (w : σ) (k : κ),
      r.account (suite.withoutSkipped options.filter) options ctx (c.world d) now (w, k) =
        (r.account suite options ctx (c.world d) now (w, k)).map
          (SuiteAccount.withoutSkips (suite.withoutSkipped options.filter).cases.length) := by
  refine ⟨fun es summary left => ?_, fun σ κ c d now w k => ?_⟩
  · rw [← relay_runSuite, Script.runs_map]
    constructor
    · rintro ⟨⟨whole, _⟩, h, ⟨⟩⟩
      obtain ⟨fs, hfs, rfl⟩ := Run.runs_relay.mp h
      exact ⟨fs, whole, hfs, rfl, rfl⟩
    · rintro ⟨fs, whole, hfs, rfl, rfl⟩
      exact ⟨(whole, left), Run.runs_relay.mpr ⟨fs, hfs, rfl⟩, rfl⟩
  · exact account_withoutSkipped (fun _ _ _ => rfl) r suite options ctx now (w, k)

end Runner

end Assay

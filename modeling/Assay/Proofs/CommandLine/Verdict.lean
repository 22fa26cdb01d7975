import Assay.Proofs.Batch.Totals
import Assay.Proofs.CommandLine.Machine
import Assay.Proofs.CommandLine.Preparation
import Assay.Proofs.Runner.Schedule
import Assay.Rehearsal.Program

namespace Assay

namespace CommandLine

open Rehearsal

/-- What a run comes to, whether it reports to people or in JSON. -/
structure Verdict (suites : List (Except Error Suite)) (summaries : List Summary)
    (faults : List Error) (events : List Event) : Prop where
  totals : Report.Totals.ofEvents events =
    ⟨(loaded suites).length, (summaries.map (·.passed)).sum, (summaries.map (·.failed)).sum,
      (summaries.map (·.skipped)).sum⟩
  success : ∀ json color, (runTranscript json color faults events).exitCode = 0 ↔
    (∀ s ∈ suites, ∃ suite, s = .ok suite) ∧ ∀ summary ∈ summaries, summary.failed = 0
  failed : (∀ summary ∈ summaries, summary.failed = 0) ↔ ∀ event ∈ events, event.isFail = false
  modes : ∀ color color', (runTranscript true color faults events).exitCode =
    (runTranscript false color' faults events).exitCode

theorem exitCode_eq_zero {json color : Bool} {faults : List Error} {events : List Event} :
    (runTranscript json color faults events).exitCode = 0 ↔
      (Report.Totals.ofEvents events).failed = 0 ∧ faults = [] := by
  simp only [runTranscript, exitCodeOf, Report.Totals.success]
  by_cases hfailed : (Report.Totals.ofEvents events).failed = 0
  · cases faults <;> simp [hfailed]
  · simp [hfailed]

variable [Libraries]

theorem verdict_of_comes {c : Configuration} {a : RunArguments} {env : List (String × String)}
    {suites : List (Except Error Suite)} {plan : Plan} (hplan : plan = Plan.ofSuites c a env suites)
    {es : List BatchExchange} {s : BatchState} {summaries : List Summary} {left : Context}
    (h : BatchState.Comes plan.runner plan.batch plan.limit plan.context es s)
    (hout : s.output? = some (summaries, left)) :
    Verdict suites summaries plan.faults (eventsOf (es.map Prod.snd)) := by
  have hlength : plan.batch.length = (loaded suites).length := by
    rw [hplan]
    exact List.length_map _
  have hfaults : plan.faults = loadFaults suites := by rw [hplan]; rfl
  have htotals := totals_of_comes h hout
  rw [hlength] at htotals
  have hsum : (summaries.map (·.failed)).sum = 0 ↔ ∀ summary ∈ summaries, summary.failed = 0 := by
    rw [List.sum_eq_zero_iff, List.forall_mem_map]
  refine ⟨htotals, fun json color => ?_, ?_, fun _ _ => rfl⟩
  · rw [exitCode_eq_zero, htotals, hsum, hfaults, loadFaults_eq_nil, and_comm]
  · have hcount : (Report.Totals.ofEvents (eventsOf (es.map Prod.snd))).failed =
        (eventsOf (es.map Prod.snd)).countP Event.isFail := by rw [Report.Totals.ofEvents_eq]
    rw [← hsum]
    rw [htotals] at hcount
    simp only at hcount
    rw [hcount, List.countP_eq_zero]
    simp only [Bool.not_eq_true]

theorem playRun_ok {s : Surroundings} {a : RunArguments} {configuration : Option String}
    {m : Machine} {plan : Plan} (h : s.ask (prepare a configuration s.env).run = .ok plan) :
    s.playRun a configuration m =
      (playBatch (Machine.respondTo s.docker) plan.runner plan.batch plan.limit plan.context m).map
        fun r => (runTranscript a.json s.color plan.faults r.2.2.2.events.reverse, r.2.2.2) := by
  unfold Surroundings.playRun
  rw [h]
  dsimp only
  cases playBatch (Machine.respondTo s.docker) plan.runner plan.batch plan.limit plan.context m <;>
    rfl

theorem playRun_cases {s : Surroundings} {a : RunArguments} {configuration : Option String}
    {m m' : Machine} {t : Transcript} (hm : m.events = [])
    (h : s.playRun a configuration m = some (t, m')) :
    (∃ fs e, (prepare a configuration s.env).run.Runs fs (.error e) ∧ t = .failure [] e ∧ m' = m) ∨
      ∃ fs plan es b summaries left, (prepare a configuration s.env).run.Runs fs (.ok plan) ∧
        BatchState.Comes plan.runner plan.batch plan.limit plan.context es b ∧
        b.output? = some (summaries, left) ∧
        t = runTranscript a.json s.color plan.faults (eventsOf (es.map Prod.snd)) := by
  obtain ⟨fs, hprepare⟩ := Script.runs_run s.disk.answer (prepare a configuration s.env).run
  change Script.Runs _ fs (s.ask (prepare a configuration s.env).run) at hprepare
  unfold Surroundings.playRun at h
  cases hresult : s.ask (prepare a configuration s.env).run with
  | error e =>
    rw [hresult] at h hprepare
    cases h
    exact .inl ⟨fs, e, hprepare, rfl, rfl⟩
  | ok plan =>
    rw [hresult] at h hprepare
    simp only [Option.bind_eq_bind, Option.bind_eq_some_iff, Prod.exists, Option.pure_def,
      Option.some.injEq, Prod.mk.injEq] at h
    obtain ⟨summaries, left, now, m₁, hplay, rfl, rfl⟩ := h
    have hkeeps := Machine.respondTo_keeps s.docker
    obtain ⟨es, b, hcomes, hout, hcovers⟩ := playBatch_comes hkeeps hplay
    have hlog := hcovers.1
    simp only [Machine.log, hm] at hlog
    refine .inr ⟨fs, plan, es, b, summaries, left, hprepare, hcomes, hout, ?_⟩
    rw [hlog]
    rfl

/-- A run command that has found suite files comes to their verdict, in every order of the steps
that the suites may take and with any answers, and however it reports. It does come to one when no
delay between attempts is too long. Without suite files it fails before it runs anything, as it does
when the settings cannot be read or a path names nothing. -/
theorem run_verdict (a : RunArguments) (configuration : Option String)
    (env : List (String × String)) :
    (∀ fs plan, (prepare a configuration env).run.Runs fs (.ok plan) →
      ∃ files suites, Prepared a env fs files suites plan ∧
        (∀ es b summaries left,
          BatchState.Comes plan.runner plan.batch plan.limit plan.context es b →
            b.output? = some (summaries, left) →
              Verdict suites summaries plan.faults (eventsOf (es.map Prod.snd))) ∧
        ((∀ e ∈ plan.batch, plan.runner.Calm e.suite e.options) → ∀ es b,
          BatchState.Comes plan.runner plan.batch plan.limit plan.context es b →
            b.output? = none → ∃ gs c, BatchState.Step plan.runner plan.batch plan.limit b gs c) ∧
        WellFounded fun c b => ∃ gs, BatchState.Step plan.runner plan.batch plan.limit b gs c) ∧
    (∀ fs e, (prepare a configuration env).run.Runs fs (.error e) →
      (∃ own, (Configuration.load configuration env).run.Runs own (.error e)) ∨
        ∃ places, collectSuiteFiles (a.paths.zip places) = .error e ∨
          collectSuiteFiles (a.paths.zip places) = .ok [] ∧ e = .noSuites) ∧
    (∀ json, prepare { a with json := json } configuration env = prepare a configuration env) ∧
    ∀ (s : Surroundings) (m m' : Machine) (t : Transcript), s.env = env → m.events = [] →
      s.playRun a configuration m = some (t, m') →
        (∃ fs e, (prepare a configuration env).run.Runs fs (.error e) ∧ t = .failure [] e ∧
          t.exitCode = 1 ∧ m' = m) ∨
        ∃ fs plan es b summaries left, (prepare a configuration env).run.Runs fs (.ok plan) ∧
          BatchState.Comes plan.runner plan.batch plan.limit plan.context es b ∧
          b.output? = some (summaries, left) ∧
          t = runTranscript a.json s.color plan.faults (eventsOf (es.map Prod.snd)) := by
  refine ⟨fun fs plan h => ?_, fun fs e h => runs_prepare_error h, fun json => rfl, ?_⟩
  · obtain ⟨files, suites, hprepared⟩ := runs_prepare h
    obtain ⟨c, hplan⟩ := hprepared.plan
    refine ⟨files, suites, hprepared, ?_, ?_, BatchState.step_wf _ _ _⟩
    · exact fun es b summaries left hcomes hout => verdict_of_comes hplan hcomes hout
    · exact fun calm es b hcomes hout => BatchState.exists_step calm hcomes hout
  · rintro s m m' t rfl hm h
    rcases playRun_cases hm h with ⟨fs, e, hfailed, rfl, rfl⟩ | hran
    · exact .inl ⟨fs, e, hfailed, rfl, rfl, rfl⟩
    · exact .inr hran

end CommandLine

namespace Rehearsal

open CommandLine

def bareMachine : Machine := ⟨[], [], [], [], []⟩

/-- A suite that is tried again after a failure, while another one goes on. -/
def slowText : String :=
  "\x7b\"name\": \"slow\", \"parallel\": true, " ++
    "\"retry\": \x7b\"maxAttempts\": 2, \"delay\": 20\x7d, \"cases\": [" ++
    "\x7b\"port\": \x7b\"port\": 80\x7d\x7d, " ++
    "\x7b\"port\": \x7b\"port\": 81, \"listening\": false\x7d\x7d]\x7d"

def quickText : String :=
  "\x7b\"name\": \"quick\", \"parallel\": true, \"cases\": [\x7b\"skip\": true\x7d, " ++
    "\x7b\"port\": \x7b\"port\": 82, \"listening\": false\x7d\x7d]\x7d"

def firstText : String :=
  "\x7b\"name\": \"first\", " ++
    "\"cases\": [\x7b\"port\": \x7b\"port\": 83, \"listening\": false\x7d\x7d]\x7d"

/-- A directory with three suites, two of them parallel, and a file that is none. -/
def mixedPlace : Surroundings :=
  ⟨⟨[("slow.json", .ok slowText), ("broken.json", .ok "\x7b"), ("quick.json", .ok quickText),
    ("first.json", .ok firstText)], []⟩, [], false, ⟨none⟩⟩

def mixedArguments : RunArguments :=
  ⟨["slow.json", "broken.json", "quick.json", "first.json"], none, none, none, some 2, false, [],
    none, false⟩

/-- Whether no delay between attempts grows. -/
def isLinear (plan : Plan) : Bool :=
  plan.batch.all fun e => (plan.runner.retry.toList ++ e.suite.retry.toList ++
    e.suite.cases.flatMap (·.retry.toList)).all fun p => p.backoff != some .exponential

theorem calm_of_isLinear {plan : Plan} (h : isLinear plan) :
    ∀ e ∈ plan.batch, plan.runner.Calm e.suite e.options := by
  intro e he
  have hlinear := List.all_eq_true.mp (List.all_eq_true.mp h e he)
  refine Runner.calm_of_linear fun p hp hbackoff => ?_
  have hmem : p ∈ plan.runner.retry.toList ++ e.suite.retry.toList ++
      e.suite.cases.flatMap (·.retry.toList) := by
    rcases hp with hrunner | hsuite | ⟨case, hcase, hpolicy⟩
    · simp [hrunner]
    · simp [hsuite]
    · exact List.mem_append_right _ (List.mem_flatMap.mpr ⟨case, hcase, by simp [hpolicy]⟩)
  have hgrows := hlinear p hmem
  rw [hbackoff] at hgrows
  cases hgrows

/-- Of four files one cannot be loaded. One case fails, after a pause in which the other parallel
suite comes to its end. -/
theorem run_verdict_mixed :
    ∃ fs plan files suites es b summaries left t m,
      (prepare mixedArguments none []).run.Runs fs (.ok plan) ∧
      Prepared mixedArguments [] fs files suites plan ∧
      (∀ e ∈ plan.batch, plan.runner.Calm e.suite e.options) ∧
      (∃ gs c, BatchState.Step plan.runner plan.batch plan.limit
        (.start plan.runner plan.batch plan.context) gs c) ∧
      BatchState.Comes plan.runner plan.batch plan.limit plan.context es b ∧
      b.output? = some (summaries, left) ∧
      Verdict suites summaries plan.faults (eventsOf (es.map Prod.snd)) ∧
      plan.faults.length = 1 ∧
      (summaries.map fun s => (s.suite, s.passed, s.failed, s.skipped)) =
        [("first", 1, 0, 0), ("quick", 1, 0, 1), ("slow", 1, 1, 0)] ∧
      mixedPlace.playRun mixedArguments none bareMachine = some (t, m) ∧ t.exitCode = 1 := by
  have hends : (mixedPlace.ask (prepare mixedArguments none []).run).toOption.any (fun plan =>
      isLinear plan && plan.faults.length == 1 &&
        (playBatch (Machine.respondTo ⟨none⟩) plan.runner plan.batch plan.limit plan.context
          bareMachine).any fun r =>
            r.1.map (fun s => (s.suite, s.passed, s.failed, s.skipped)) ==
                [("first", 1, 0, 0), ("quick", 1, 0, 1), ("slow", 1, 1, 0)] &&
              (runTranscript false false plan.faults r.2.2.2.events.reverse).exitCode == 1) =
      true := by
    decide +kernel
  obtain ⟨plan, hplan, hfacts⟩ := (Option.any_eq_true _ _).mp hends
  simp only [Bool.and_eq_true, beq_iff_eq] at hfacts
  obtain ⟨⟨hlinear, hfaults⟩, hplayed⟩ := hfacts
  obtain ⟨⟨summaries, left, now, m⟩, hplay, hfacts⟩ := (Option.any_eq_true _ _).mp hplayed
  simp only [Bool.and_eq_true, beq_iff_eq] at hfacts
  obtain ⟨hsummaries, hcode⟩ := hfacts
  have hask : mixedPlace.ask (prepare mixedArguments none []).run = .ok plan :=
    toOption_eq_some.mp hplan
  obtain ⟨fs, hprepare⟩ :=
    Script.runs_run mixedPlace.disk.answer (prepare mixedArguments none []).run
  have hprepare : (prepare mixedArguments none []).run.Runs fs (.ok plan) := hask ▸ hprepare
  obtain ⟨verdict, -⟩ := run_verdict mixedArguments none []
  obtain ⟨files, suites, hprepared, hverdict, hgoes, -⟩ := verdict fs plan hprepare
  have hcalm := calm_of_isLinear hlinear
  obtain ⟨es, b, hcomes, hout, -⟩ := playBatch_comes (Machine.respondTo_keeps ⟨none⟩) hplay
  have hrun : mixedPlace.playRun mixedArguments none bareMachine =
      some (runTranscript false false plan.faults m.events.reverse, m) := by
    rw [playRun_ok hask]
    exact congrArg (Option.map _) hplay
  exact ⟨fs, plan, files, suites, es, b, summaries, left, _, m, hprepare, hprepared, hcalm,
    hgoes hcalm _ _ (.refl _) rfl, hcomes, hout, hverdict _ _ _ _ hcomes hout, hfaults, hsummaries,
    hrun, hcode⟩

/-- A directory without a suite. -/
def barePlace : Surroundings := ⟨⟨[("empty/readme.txt", .ok "")], []⟩, [], false, ⟨none⟩⟩

/-- No suite file fails to load and no case fails where there are no suite files, and yet the run
fails. -/
theorem run_without_suites :
    ∃ files t m, collectSuiteFiles [("empty", barePlace.disk.look "empty")] = .ok files ∧
      barePlace.play ["run", "empty"] bareMachine = some (t, m) ∧
      ¬(t.exitCode = 0 ↔
        (∀ file ∈ files, ∃ suite, Suite.ofFile file (barePlace.disk.read file) = .ok suite) ∧
          ∀ event ∈ m.events, event.isFail = false) := by
  have hcollect : (collectSuiteFiles [("empty", barePlace.disk.look "empty")]).toOption =
      some [] := by
    decide +kernel
  have hplay : (barePlace.play ["run", "empty"] bareMachine).any
      (fun r => r.1.exitCode == 1 && r.2.events.isEmpty) = true := by decide +kernel
  obtain ⟨⟨t, m⟩, hresult, hends⟩ := (Option.any_eq_true _ _).mp hplay
  simp only [Bool.and_eq_true, beq_iff_eq, List.isEmpty_iff] at hends
  obtain ⟨hcode, hevents⟩ := hends
  cases hfiles : collectSuiteFiles [("empty", barePlace.disk.look "empty")] with
  | error e =>
    rw [hfiles] at hcollect
    cases hcollect
  | ok files =>
    rw [hfiles] at hcollect
    cases hcollect
    refine ⟨[], t, m, rfl, hresult, fun h => ?_⟩
    have hzero : t.exitCode = 0 := h.mpr (by simp [hevents])
    rw [hcode] at hzero
    cases hzero

end Rehearsal

end Assay

import Assay.Proofs.Runner.Course

namespace Assay

open Script (Exchange AsksOnly runs_done)

/-- Nothing, or one log of the suite. -/
def LogReport (suite : String) (events : List Event) : Prop :=
  events = [] ∨ ∃ level message, events = [.log suite level message]

/-- What is reported of a case: that it is left out, and why, or that it starts and right after
that how it ended. -/
inductive CaseReport (suite : String) (filter : Option String) (case : Step) : List Event → Prop
  | skipped {reason : String} (why : case.skipReason filter = some reason) :
      CaseReport suite filter case [.caseSkip suite case.displayName reason]
  | passed (runs : case.skipReason filter = none) (durationMs : Nat)
      (attempts : Option (List Attempt)) :
      CaseReport suite filter case
        [.caseStart suite case.displayName,
          .casePass suite case.displayName durationMs attempts]
  | failed (runs : case.skipReason filter = none) (durationMs : Nat) (error : String)
      (report : Option DiagnosticsReport) (attempts : Option (List Attempt)) :
      CaseReport suite filter case
        [.caseStart suite case.displayName,
          .caseFail suite case.displayName durationMs error report attempts]

/-- What is reported of a teardown step. -/
def TeardownReport (suite : String) (s : Step) (events : List Event) : Prop :=
  LogReport suite events ∧ (s.ignoreError → events = [])

/-- The events of a suite with its summary: between start and end there is first what each setup
entry gives, then what each case gives, then what each teardown step gives. -/
structure SuiteReport (suite : Suite) (options : RunOptions) (events : List Event)
    (summary : Summary) : Prop where
  shape : ∃ before groups after,
    events = .suiteStart suite.name suite.description suite.cases.length ::
      (before.flatten ++ (groups.flatten ++ (after.flatten ++
        [.suiteEnd suite.name summary.passed summary.failed summary.skipped
          summary.durationMs]))) ∧
    List.Forall₂ (fun _ => LogReport suite.name) suite.setup before ∧
    List.Forall₂ (CaseReport suite.name options.filter) suite.cases groups ∧
    List.Forall₂ (TeardownReport suite.name) suite.teardown after
  name : summary.suite = suite.name
  passed : summary.passed = events.countP Event.isPass
  failed : summary.failed = events.countP Event.isFail
  skipped : summary.skipped = events.countP Event.isSkip
  total : summary.passed + summary.failed + summary.skipped = suite.cases.length

theorem LogReport.tally {suite : String} {events : List Event} (h : LogReport suite events) :
    Tally.ofEvents events = {} := by
  rcases h with rfl | ⟨level, message, rfl⟩ <;> rfl

theorem CaseReport.total {suite : String} {filter : Option String} {case : Step}
    {events : List Event} (h : CaseReport suite filter case events) :
    (Tally.ofEvents events).total = 1 := by
  cases h <;> rfl

theorem tally_flatten_logs {suite : String} {α : Type} {P : α → List Event → Prop}
    (hP : ∀ a events, P a events → LogReport suite events) {as : List α}
    {logs : List (List Event)} (h : List.Forall₂ P as logs) : Tally.ofEvents logs.flatten = {} := by
  induction h with
  | nil => rfl
  | cons first rest ih =>
    rw [List.flatten_cons, Tally.ofEvents_append, (hP _ _ first).tally, ih]
    rfl

theorem tally_flatten_cases {suite : String} {filter : Option String} {cases : List Step}
    {groups : List (List Event)} (h : List.Forall₂ (CaseReport suite filter) cases groups) :
    (Tally.ofEvents groups.flatten).total = cases.length := by
  induction h with
  | nil => rfl
  | cons first rest ih =>
    rw [List.flatten_cons, Tally.ofEvents_append, Tally.total_add, first.total, ih,
      List.length_cons, Nat.add_comm]

section Runs

variable {suite : Suite} {settings : StepSettings} {es : List (Exchange Query.Answer)}

theorem Suite.log_report {α : Type} {level : LogLevel} {message : String} {a b : α}
    (h : (suite.log level message >>= fun _ => pure a).Runs es b) :
    LogReport suite.name (eventsOf es) := by
  obtain ⟨fs, hdone, hes⟩ := eventsOf_emit_bind h
  obtain ⟨rfl, -⟩ := runs_done hdone
  exact .inr ⟨level, message, hes⟩

theorem SetupEntry.run_report [Libraries] {entry : SetupEntry} {ctx left : Context}
    (h : (entry.run suite settings ctx).Runs es left) : LogReport suite.name (eventsOf es) := by
  cases entry with
  | waitForHealth w =>
    have hwait := w.run_asksOnly (fun _ => Query.IsErrand.isQuiet) trivial settings.baseUrl
    obtain ⟨fs, healthy, hrest, hes⟩ := eventsOf_quiet_bind hwait h
    rw [hes]
    cases healthy with
    | true => exact .inl (by rw [(runs_done hrest).1, eventsOf_nil])
    | false => exact Suite.log_report hrest
  | waitForPort w =>
    have hwait := w.run_asksOnly (fun _ => Query.IsErrand.isQuiet) trivial
    obtain ⟨fs, opened, hrest, hes⟩ := eventsOf_quiet_bind hwait h
    rw [hes]
    cases opened with
    | true => exact .inl (by rw [(runs_done hrest).1, eventsOf_nil])
    | false => exact Suite.log_report hrest
  | delay d =>
    obtain ⟨fs, _, hrest, hes⟩ := eventsOf_quiet_bind (Run.sleep_asksOnly trivial) h
    exact .inl (by rw [hes, (runs_done hrest).1, eventsOf_nil])
  | step s =>
    have hstep := (s.runOnce_asksOnly settings ctx).mono fun _ => Query.IsErrand.isQuiet
    obtain ⟨fs, ⟨error, ctx'⟩, hrest, hes⟩ := eventsOf_quiet_bind hstep h
    rw [hes]
    cases error with
    | none => exact .inl (by rw [(runs_done hrest).1, eventsOf_nil])
    | some e => exact Suite.log_report hrest

theorem Step.runTeardown_report [Libraries] {s : Step} {ctx left : Context}
    (h : (s.runTeardown suite settings ctx).Runs es left) :
    TeardownReport suite.name s (eventsOf es) := by
  have hstep := (s.runOnce_asksOnly settings ctx).mono fun _ => Query.IsErrand.isQuiet
  obtain ⟨fs, ⟨error, ctx'⟩, hrest, hes⟩ := eventsOf_quiet_bind hstep h
  rw [hes]
  cases error with
  | none =>
    have hnil : eventsOf fs = [] := by rw [(runs_done hrest).1, eventsOf_nil]
    exact ⟨.inl hnil, fun _ => hnil⟩
  | some e =>
    cases hignore : s.ignoreError with
    | true =>
      simp only [hignore] at hrest
      have hnil : eventsOf fs = [] := by rw [(runs_done hrest).1, eventsOf_nil]
      exact ⟨.inl hnil, fun _ => hnil⟩
    | false =>
      simp only [hignore] at hrest
      exact ⟨Suite.log_report hrest, by simp [hignore]⟩

theorem Runner.Diagnosis.events {r : Runner} {options : RunOptions}
    {report : Option DiagnosticsReport} (h : r.Diagnosis options es report) : eventsOf es = [] := by
  cases h <;> rfl

theorem Runner.tryCase_events [Libraries] {r : Runner} {case : Step} {ctx left : Context}
    {result : Option String × Option (List Attempt)}
    (h : (r.tryCase suite settings case ctx).Runs es (result, left)) : eventsOf es = [] :=
  eventsOf_quiet (r.tryCase_isQuiet suite settings case ctx) h

theorem Runner.CaseCourse.report [Libraries] {r : Runner} {options : RunOptions} {case : Step}
    {s t : Tally × Context} (h : r.CaseCourse suite options case s es t) :
    CaseReport suite.name options.filter case (eventsOf es) ∧
      t.1 = s.1 + Tally.ofEvents (eventsOf es) := by
  cases h with
  | skipped why => exact ⟨.skipped why, rfl⟩
  | passed runs tried =>
    simp only [eventsOf_cons, eventsOf_append, Query.event?, tryCase_events tried]
    exact ⟨.passed runs _ _, rfl⟩
  | failed runs tried _ diagnosis =>
    simp only [eventsOf_cons, eventsOf_append, Query.event?, tryCase_events tried,
      diagnosis.events]
    exact ⟨.failed runs _ _ _ _, rfl⟩

end Runs

end Assay

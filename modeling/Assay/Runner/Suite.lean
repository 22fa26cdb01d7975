import Assay.Runner.Wait

namespace Assay

variable [Libraries]

namespace Suite

def settings (suite : Suite) (options : RunOptions) : StepSettings :=
  ⟨options.baseUrl, suite.timeout.or options.timeout, suite.container.or options.container⟩

def log (suite : Suite) (level : LogLevel) (message : String) : Run Unit :=
  Run.emit (.log suite.name level message)

end Suite

namespace SetupEntry

/-- Do a setup entry. Its failure is reported and has no other consequence. -/
def run (suite : Suite) (settings : StepSettings) (ctx : Context) : SetupEntry → Run Context
  | .waitForHealth w => do
    let healthy ← w.run settings.baseUrl
    if !healthy then suite.log .warn (w.warning settings.baseUrl)
    pure ctx
  | .waitForPort w => do
    let opened ← w.run
    if !opened then suite.log .warn w.warning
    pure ctx
  | .delay d => do
    Run.sleep d.toNanos
    pure ctx
  | .step s => do
    let (error, ctx) ← s.runOnce settings ctx
    match error with
    | some e =>
      suite.log (if s.ignoreError then .warn else .error)
        ("Setup '" ++ s.displayName ++ "' failed: " ++ e)
    | none => pure ()
    pure ctx

end SetupEntry

/-- Do a teardown step. Its failure is reported unless it is to be ignored. -/
def Step.runTeardown (suite : Suite) (settings : StepSettings) (ctx : Context) (s : Step) :
    Run Context := do
  let (error, ctx) ← s.runOnce settings ctx
  match error with
  | some e =>
    if !s.ignoreError then suite.log .warn ("Teardown '" ++ s.displayName ++ "' failed: " ++ e)
  | none => pure ()
  pure ctx

namespace Runner

/-- The policy of a case when it gives more than one attempt. -/
def policyFor (r : Runner) (suite : Suite) (case : Step) : Option RetryPolicy :=
  (RetryPolicy.effective case.retry suite.retry r.retry).filter (·.retries)

/-- Try a case: its error, its attempts if a policy gives several, and the context after it. -/
def tryCase (r : Runner) (suite : Suite) (settings : StepSettings) (case : Step) (ctx : Context) :
    Run ((Option String × Option (List Attempt)) × Context) :=
  match r.policyFor suite case with
  | some p => do
    let (outcome, ctx) ← p.tryAll (case.runOnce settings) ctx
    let error := if outcome.passed then none else some (outcome.finalError.getD "")
    pure ((error, some outcome.attempts), ctx)
  | none => do
    let (error, ctx) ← case.runOnce settings ctx
    pure ((error, none), ctx)

/-- What can be found out about a failure, if somebody collects it and something is wanted. -/
def diagnose (r : Runner) (options : RunOptions) : Run (Option DiagnosticsReport) :=
  match if r.collects then options.diagnostics.filter (!·.isEmpty) else none with
  | some request => do
    match ← Run.collect request with
    | .ok report => pure (some report)
    | .error _ => pure none
  | none => pure none

def runCase (r : Runner) (suite : Suite) (options : RunOptions) (settings : StepSettings)
    (state : Tally × Context) (case : Step) : Run (Tally × Context) := do
  let (tally, ctx) := state
  let name := case.displayName
  match case.skipReason options.filter with
  | some reason =>
    Run.emit (.caseSkip suite.name name reason)
    pure ({ tally with skipped := tally.skipped + 1 }, ctx)
  | none =>
    Run.emit (.caseStart suite.name name)
    let start ← Run.clock
    let ((error, attempts), ctx) ← r.tryCase suite settings case ctx
    let stop ← Run.clock
    match error with
    | none =>
      Run.emit (.casePass suite.name name (stop - start) attempts)
      pure ({ tally with passed := tally.passed + 1 }, ctx)
    | some e =>
      let report ← r.diagnose options
      Run.emit (.caseFail suite.name name (stop - start) e report attempts)
      pure ({ tally with failed := tally.failed + 1 }, ctx)

/-- Run a suite: its variables, its setup, its cases and its teardown, each part on the context
that the one before it left. -/
def runSuite (r : Runner) (suite : Suite) (options : RunOptions) (ctx : Context) :
    Run (Summary × Context) := do
  let start ← Run.clock
  Run.emit (.suiteStart suite.name suite.description suite.cases.length)
  let settings := suite.settings options
  let ctx := ctx.defineAll suite.vars
  let ctx ← Script.each (fun ctx e => e.run suite settings ctx) ctx suite.setup
  let (tally, ctx) ← Script.each (r.runCase suite options settings) ({}, ctx) suite.cases
  let ctx ← Script.each (fun ctx s => s.runTeardown suite settings ctx) ctx suite.teardown
  let stop ← Run.clock
  Run.emit (.suiteEnd suite.name tally.passed tally.failed tally.skipped (stop - start))
  pure (⟨suite.name, tally.passed, tally.failed, tally.skipped, stop - start⟩, ctx)

end Runner

end Assay

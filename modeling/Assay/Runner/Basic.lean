import Assay.Probe.Step
import Assay.Retry.Attempts
import Assay.Suite.Basic

namespace Assay

structure RunOptions where
  baseUrl : String
  timeout : Option Duration
  container : Option String
  /-- What to look at when a case has failed; nothing when absent. -/
  diagnostics : Option DiagnosticsRequest
  /-- Only cases whose name contains this are run. -/
  filter : Option String

structure Summary where
  suite : String
  passed : Nat
  failed : Nat
  skipped : Nat
  durationMs : Nat

def Summary.success (s : Summary) : Bool := s.failed == 0

/-- What runs suites: whether somebody collects diagnostics, and the policy of cases and suites
that have none. -/
structure Runner where
  collects : Bool
  retry : Option RetryPolicy

structure Tally where
  passed : Nat := 0
  failed : Nat := 0
  skipped : Nat := 0

namespace Step

variable [Libraries]

def failureText : Except Error (List String × Context) → Option String
  | .ok ([], _) => none
  | .ok (failures, _) => some (String.intercalate "\n" failures)
  | .error e => some e.message

/-- The context after a step; an error leaves it as it was. -/
def contextAfter (ctx : Context) : Except Error (List String × Context) → Context
  | .ok (_, ctx) => ctx
  | .error _ => ctx

def runOnce (s : Step) (settings : StepSettings) (ctx : Context) :
    Run (Option String × Context) := do
  match s.delay with
  | some d => Run.sleep d.toNanos
  | none => pure ()
  let result ← (s.execute settings ctx).run
  pure (failureText result, contextAfter ctx result)

def skipReason (s : Step) (filter : Option String) : Option String :=
  if s.skip then some "marked skip"
  else
    match filter with
    | some f =>
      if Text.contains s.displayName f then none
      else some ("does not match filter '" ++ f ++ "'")
    | none => none

end Step

end Assay

import Assay.Diagnostics.Basic

namespace Assay

structure Attempt where
  /-- Counted from one. -/
  number : Nat
  passed : Bool
  error : Option String
  durationMs : Nat
  /-- When it began, in milliseconds. -/
  timestamp : Nat

def Attempt.toValue (a : Attempt) : Value :=
  .object
    [("attempt", .nat a.number), ("passed", .bool a.passed),
      ("error", .ofOption .string a.error), ("durationMs", .nat a.durationMs),
      ("timestamp", .nat a.timestamp)]

inductive LogLevel
  | info
  | warn
  | error
deriving DecidableEq

def LogLevel.name : LogLevel → String
  | info => "info"
  | warn => "warn"
  | error => "error"

inductive Event
  | suiteStart (suite : String) (description : Option String) (cases : Nat)
  | caseStart (suite name : String)
  | casePass (suite name : String) (durationMs : Nat) (attempts : Option (List Attempt))
  | caseFail (suite name : String) (durationMs : Nat) (error : String)
      (diagnostics : Option DiagnosticsReport) (attempts : Option (List Attempt))
  | caseSkip (suite name : String) (reason : String)
  | suiteEnd (suite : String) (passed failed skipped : Nat) (durationMs : Nat)
  | log (suite : String) (level : LogLevel) (message : String)

namespace Event

def kind : Event → String
  | suiteStart .. => "suite_start"
  | caseStart .. => "case_start"
  | casePass .. => "case_pass"
  | caseFail .. => "case_fail"
  | caseSkip .. => "case_skip"
  | suiteEnd .. => "suite_end"
  | log .. => "log"

def optional {α : Type} (name : String) (f : α → Value) : Option α → Fields
  | some a => [(name, f a)]
  | none => []

def attemptList (as : List Attempt) : Value := .array (as.map Attempt.toValue)

/-- The fields of an event besides its kind. Absent parts are left out. -/
def fields : Event → Fields
  | suiteStart suite description cases =>
    ("suite", .string suite) :: optional "description" .string description ++
      [("cases", .nat cases)]
  | caseStart suite name => [("suite", .string suite), ("case", .string name)]
  | casePass suite name durationMs attempts =>
    [("suite", .string suite), ("case", .string name), ("duration_ms", .nat durationMs)] ++
      optional "attempts" attemptList attempts
  | caseFail suite name durationMs error diagnostics attempts =>
    [("suite", .string suite), ("case", .string name), ("duration_ms", .nat durationMs),
      ("error", .string error)] ++
      optional "diagnostics" DiagnosticsReport.toValue diagnostics ++
      optional "attempts" attemptList attempts
  | caseSkip suite name reason =>
    [("suite", .string suite), ("case", .string name), ("reason", .string reason)]
  | suiteEnd suite passed failed skipped durationMs =>
    [("suite", .string suite), ("passed", .nat passed), ("failed", .nat failed),
      ("skipped", .nat skipped), ("duration_ms", .nat durationMs)]
  | log suite level message =>
    [("suite", .string suite), ("level", .string level.name), ("message", .string message)]

def toValue (e : Event) : Value := .object (("type", .string e.kind) :: e.fields)

end Event

end Assay

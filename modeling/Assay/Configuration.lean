import Assay.Diagnostics.Basic
import Assay.Error
import Assay.Libraries
import Assay.Suite.Retry

namespace Assay

/-- What every suite runs with unless it says otherwise. -/
structure Defaults where
  baseUrl : String
  container : Option String
  timeout : Option Duration

/-- What is looked at when a case fails, and whether it is. -/
structure DiagnosticsSettings where
  enabled : Bool
  containers : List String
  mockEndpoints : List String
  network : Option String

structure Configuration where
  defaults : Defaults
  retry : Option RetryPolicy
  /-- How many suites of the parallel group run at a time. -/
  limit : Option Nat
  diagnostics : DiagnosticsSettings
  vars : Fields

namespace Defaults

def usual : Defaults := ⟨"http://localhost:8080", none, none⟩

def record : Record Defaults :=
  Defaults.mk <$> .optional "base_url" usual.baseUrl .text <*> .option "container" .text <*>
    .option "timeout" Duration.decode

def toFields (d : Defaults) : Fields :=
  ("base_url", .string d.baseUrl) ::
    ((d.container.map fun c => ("container", Value.string c)).toList ++
      (d.timeout.map fun t => ("timeout", t.toValue)).toList)

end Defaults

namespace DiagnosticsSettings

def usual : DiagnosticsSettings := ⟨false, [], [], none⟩

def record : Record DiagnosticsSettings :=
  DiagnosticsSettings.mk <$> .optional "enabled" false .bool <*>
    .optional "containers" [] (.list .text) <*> .optional "mock_endpoints" [] (.list .text) <*>
    .option "network" .text

def toFields (d : DiagnosticsSettings) : Fields :=
  [("enabled", .bool d.enabled), ("containers", .strings d.containers),
    ("mock_endpoints", .strings d.mockEndpoints)] ++
    (d.network.map fun n => ("network", Value.string n)).toList

/-- What to look at; nothing when it is switched off. -/
def request (d : DiagnosticsSettings) : Option DiagnosticsRequest :=
  if d.enabled then some ⟨d.containers, d.mockEndpoints, d.network⟩ else none

end DiagnosticsSettings

namespace Configuration

variable [Libraries]

def limitRecord : Record (Option Nat) := .option "limit" .size

def record : Record Configuration :=
  Configuration.mk <$> .optional "defaults" .usual (Defaults.record.decode "Defaults" false) <*>
    .option "retry" RetryPolicy.decode <*>
    .optional "concurrency" none (limitRecord.decode "Concurrency" false) <*>
    .optional "diagnostics" .usual (DiagnosticsSettings.record.decode "DiagnosticsConfig" false) <*>
    .optional "variables" [] .fields

def decode : Decoder Configuration := record.decode "Config" false

def usual : Configuration := ⟨.usual, none, none, .usual, []⟩

/-- The settings with their variables in the order of names. `retry` says how the policy is
written. -/
def toFields (c : Configuration) (retry : RetryPolicy → Value) : Fields :=
  ("defaults", .object c.defaults.toFields) ::
    ((c.retry.map fun p => ("retry", retry p)).toList ++
      [("concurrency", .object (c.limit.map fun n => ("limit", Value.nat n)).toList),
        ("diagnostics", .object c.diagnostics.toFields),
        ("variables", .object (Entries.sorted c.vars))])

def toValue (c : Configuration) : Value := .object (c.toFields RetryPolicy.toValue)

def presentRetry (p : RetryPolicy) : Value :=
  .object
    ([("maxAttempts", .nat p.maxAttempts), ("delay", p.delay.toValue)] ++
      (p.backoff.map fun b => ("backoff", Value.string (RetryPolicy.backoffName b))).toList ++
      (p.multiplier.map fun x => ("backoffMultiplier", Value.number (.float x))).toList)

def ofText (text : String) : Except Error Configuration :=
  match Libraries.readToml text with
  | .error reason => .error (.malformedConfiguration reason)
  | .ok d => (decode .toml d).mapError fun m => .malformedConfiguration (m.message .toml)

def text (c : Configuration) : Except Error String :=
  (Libraries.printToml (c.toFields presentRetry)).mapError .malformedConfiguration

end Configuration

end Assay

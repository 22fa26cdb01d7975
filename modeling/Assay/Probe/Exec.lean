import Assay.Probe.Text
import Assay.Suite.Expectation
import Assay.World

namespace Assay

structure StepSettings where
  /-- What the paths of requests are put below. -/
  baseUrl : String
  timeout : Option Duration
  container : Option String

namespace StepSettings

/-- The container of a step that has none of its own is that of the suite. -/
def target (s : StepSettings) (own : Option String) (kind : String) : Except Error String :=
  match own.or s.container with
  | some c => .ok c
  | none => .error (.missingContainer kind)

end StepSettings

namespace ExecStep

variable [Libraries]

def limit : Duration := .seconds 15

def outputChecks (e : OutputExpectation) : TextChecks := ⟨e.contains, e.lacks, e.pattern, e.json⟩

def lengthFailures (stdout : String) : Option Comparison → List String
  | some c =>
    let count := (Text.lines stdout).length
    if c.holds (.ofNat count) then []
    else ["Expected output line count " ++ c.text ++ ", got " ++ toString count]
  | none => []

def outputFailures (stdout : String) : Option OutputExpectation → Except Error (List String)
  | some e => do
    let byText ← (outputChecks e).failures "output" stdout
    pure (byText ++ lengthFailures stdout e.length)
  | none => .ok []

def exitFailures (actual : Int) : Option Int → List String
  | some code =>
    if code = actual then []
    else ["Expected exit code " ++ toString code ++ ", got " ++ toString actual]
  | none => []

/-- Why the outcome of a command is not what was wanted. When nothing is said, the command must
succeed. -/
def failures (command : String) (output : ExecOutput) :
    Option Expectation → Except Error (List String)
  | none =>
    .ok <|
      if output.success then []
      else
        ["Command '" ++ command ++ "' failed with exit code " ++ toString output.exitCode ++ ": " ++
          Text.trim output.stderr]
  | some e => do
    let byOutput ← outputFailures output.stdout e.output
    pure (exitFailures output.exitCode e.exitCode ++ byOutput)

def run (s : ExecStep) (expect : Option Expectation) (settings : StepSettings) :
    Trial (List String) := do
  let target ← settings.target s.container "exec"
  let output ← Run.exec target s.command limit
  failures s.command output expect

end ExecStep

end Assay

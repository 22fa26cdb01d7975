import Assay.Suite.Expectation
import Assay.Suite.Retry

namespace Assay

structure Step where
  name : Option String
  action : Option Action
  delay : Option Duration
  expect : Option Expectation
  /-- Names of variables with the paths of their values in the response body. -/
  save : Entries String
  ignoreError : Bool
  retry : Option RetryPolicy
  skip : Bool

namespace Step

/-- The fields of a step as they are written: at most one of the kinds is meant to be present. -/
structure Written where
  name : Option String
  request : Option RequestStep
  exec : Option ExecStep
  file : Option FileStep
  process : Option ProcessStep
  port : Option PortStep
  delay : Option Duration
  expect : Option Expectation
  save : Entries String
  ignoreError : Bool
  retry : Option RetryPolicy
  skip : Bool

def record : Record Written :=
  Written.mk <$> .option "name" .text <*> .option "request" RequestStep.decode <*>
    .option "exec" ExecStep.decode <*> .option "file" FileStep.decode <*>
    .option "process" ProcessStep.decode <*> .option "port" PortStep.decode <*>
    .option "delay" Duration.decode <*> .option "expect" Expectation.decode <*>
    .optional "save" [] (.entries .text) <*> .optional "ignoreError" false .bool <*>
    .option "retry" RetryPolicy.decode <*> .optional "skip" false .bool

/-- Of several kinds, a file goes before a process, a port, a command and a request. -/
def Written.action (w : Written) : Option Action :=
  (w.file.map .file).or <| (w.process.map .process).or <| (w.port.map .port).or <|
    (w.exec.map .exec).or (w.request.map .request)

def ofWritten (w : Written) : Step :=
  ⟨w.name, w.action, w.delay, w.expect, (Entries.ofList w.save).sorted, w.ignoreError, w.retry,
    w.skip⟩

def decode : Decoder Step := fun o d => (record.decode "RawStep" false o d).map ofWritten

def displayName (s : Step) : String :=
  match s.name, s.action with
  | some name, _ => name
  | none, some action => action.describe
  | none, none => "<empty step>"

end Step

end Assay

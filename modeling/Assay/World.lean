import Assay.Event
import Assay.Http.Request
import Assay.Script

namespace Assay

structure ExecOutput where
  stdout : String
  stderr : String
  exitCode : Int

def ExecOutput.success (o : ExecOutput) : Bool := o.exitCode == 0

/-- What a run asks of the world: commands, requests, connections, time, and somebody who takes
its reports. A wait too long to be waited has no answer. -/
inductive Query
  | exec (target command : String) (limit : Duration)
  | send (request : HttpRequest) (limit : Duration)
  | connect (host : String) (port : Nat) (limit : Duration)
  | sleep (nanos : Nat)
  | sleepForever
  | clock
  | emit (event : Event)
  | collect (request : DiagnosticsRequest)

/-- The clock counts milliseconds. -/
def Query.Answer : Query → Type
  | exec .. => Except Error ExecOutput
  | send .. => HttpReply
  | connect .. => Bool
  | sleep _ => Unit
  | sleepForever => Empty
  | clock => Nat
  | emit _ => Unit
  | collect _ => Except Error DiagnosticsReport

abbrev Run (α : Type) := Script Query.Answer α

/-- A run that an error may end. -/
abbrev Trial (α : Type) := ExceptT Error (Script Query.Answer) α

namespace Run

def exec (target command : String) (limit : Duration) : Trial ExecOutput :=
  ExceptT.mk (Script.query (A := Query.Answer) (.exec target command limit))

def send (request : HttpRequest) (limit : Duration) : Run HttpReply :=
  Script.query (A := Query.Answer) (.send request limit)

def connect (host : String) (port : Nat) (limit : Duration) : Run Bool :=
  Script.query (A := Query.Answer) (.connect host port limit)

def sleep (nanos : Nat) : Run Unit := Script.query (A := Query.Answer) (.sleep nanos)

def sleepForever {α : Type} : Run α := .ask .sleepForever fun (r : Empty) => nomatch r

def clock : Run Nat := Script.query (A := Query.Answer) .clock

def emit (event : Event) : Run Unit := Script.query (A := Query.Answer) (.emit event)

def collect (request : DiagnosticsRequest) : Run (Except Error DiagnosticsReport) :=
  Script.query (A := Query.Answer) (.collect request)

end Run

end Assay

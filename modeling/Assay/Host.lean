import Assay.World

namespace Assay

inductive ToolReply
  /-- A program that was killed has no exit code. -/
  | ended (stdout stderr : List UInt8) (exitCode : Option Int)
  /-- It could not be started. -/
  | refused (reason : String)
  /-- It did not end within the limit. -/
  | silent

inductive HostQuery
  /-- Where the program of a name is. -/
  | locate (name : String)
  | launch (program : String) (arguments : List String) (limit : Duration)
  | send (request : HttpRequest) (limit : Duration)
  | connect (host : String) (port : Nat) (limit : Duration)
  | sleep (nanos : Nat)
  | sleepForever
  | clock
  | emit (event : Event)

def HostQuery.Answer : HostQuery → Type
  | locate _ => Option String
  | launch .. => ToolReply
  | send .. => HttpReply
  | connect .. => Bool
  | sleep _ => Unit
  | sleepForever => Empty
  | clock => Nat
  | emit _ => Unit

abbrev HostRun (α : Type) := Script HostQuery.Answer α

namespace HostRun

def locate (name : String) : HostRun (Option String) :=
  Script.query (A := HostQuery.Answer) (.locate name)

def launch (program : String) (arguments : List String) (limit : Duration) : HostRun ToolReply :=
  Script.query (A := HostQuery.Answer) (.launch program arguments limit)

def send (request : HttpRequest) (limit : Duration) : HostRun HttpReply :=
  Script.query (A := HostQuery.Answer) (.send request limit)

end HostRun

end Assay

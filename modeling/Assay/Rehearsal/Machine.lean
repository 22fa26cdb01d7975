import Assay.Docker
import Assay.Rehearsal.Pool

namespace Assay.Rehearsal

/-- What a scripted tool does when its arguments match, and how many milliseconds it takes. -/
structure ToolRule where
  pattern : String
  stdout : List UInt8
  stderr : List UInt8
  exitCode : Option Int
  takes : Nat

/-- A scripted machine without a network, with what was asked of it so far, last one first. -/
structure Machine where
  /-- Where programs are found by their names. -/
  found : List (String × String)
  /-- The programs that can be started. -/
  programs : List String
  rules : List ToolRule
  invocations : List (List String) := []
  events : List Event := []

namespace Machine

variable [Libraries]

def noRule : ToolRule := ⟨"", [], "no rule".toUTF8.toList, some 127, 0⟩

def rule (m : Machine) (arguments : List String) : ToolRule :=
  let line := String.intercalate " " arguments
  (m.rules.find? fun r => Text.contains line r.pattern).getD noRule

def record (m : Machine) (arguments : List String) : Machine :=
  { m with invocations := arguments :: m.invocations }

def responseTime : Nat := 1

def ToolRule.reply (r : ToolRule) (limit : Duration) : Nat × ToolReply :=
  if r.takes > 0 ∧ limit.millis ≤ r.takes then (max responseTime limit.millis, .silent)
  else (max responseTime r.takes, .ended r.stdout r.stderr r.exitCode)

def respond : Responder HostQuery.Answer Machine
  | .locate name, _, m => some (0, m.found.lookup name, m)
  | .launch program arguments limit, _, m =>
    if m.programs.contains program then
      let (delay, r) := ToolRule.reply (m.rule arguments) limit
      some (delay, r, m.record arguments)
    else some (0, .refused FileFault.absent.message, m)
  | .send _ _, _, m => some (responseTime, .unreachable, m)
  | .connect _ _ _, _, m => some (responseTime, false, m)
  | .sleep nanos, _, m => some (sleepMillis nanos, (), m)
  | .sleepForever, _, _ => none
  | .clock, now, m => some (0, now, m)
  | .emit event, _, m => some (0, (), { m with events := event :: m.events })

def respondTo (d : Docker) : Responder Query.Answer Machine :=
  Responder.through respond (Query.onHost d)

end Machine

end Assay.Rehearsal

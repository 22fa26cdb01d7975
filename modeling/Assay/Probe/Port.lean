import Assay.Probe.Exec

namespace Assay.PortStep

def limit : Duration := .seconds 5

def listCommand (port : Nat) : String :=
  "(netstat -tln 2>/dev/null || ss -tln 2>/dev/null) | grep -E ':" ++ toString port ++
    "([^0-9]|$)'"

/-- The socket tables of the kernel, for systems without a tool that lists them. -/
def tableCommand : String := "cat /proc/net/tcp /proc/net/tcp6 2>/dev/null"

def hexPort? (cs : List Char) : Option Nat :=
  let digits := match cs with
    | '+' :: r => r
    | _ => cs
  (readBase? 16 digits).filter (· ≤ 65535)

/-- The state of a socket that waits for connections. -/
def listenState : String := "0A"

/-- Whether a line of a socket table is about a socket that listens on the port. -/
def lineListens (port : Nat) (line : String) : Bool :=
  match Text.words line with
  | _ :: place :: _ :: state :: _ =>
    ((Text.cutAtLast ':' place.toList).bind fun p => hexPort? p.2) == some port &&
      Text.sameIgnoringCase state listenState
  | _ => false

def tableListens (table : String) (port : Nat) : Bool :=
  (Text.lines table).any (lineListens port)

def listensInside (container : String) (port : Nat) : Trial Bool := do
  let listing ← Run.exec container (listCommand port) limit
  if listing.success && !(Text.trimChars listing.stdout.toList).isEmpty then pure true
  else do
    let table ← Run.exec container tableCommand limit
    pure (tableListens table.stdout port)

/-- Whether the port is open, and the words for where it was looked for. -/
def look (s : PortStep) : Trial (Bool × String) :=
  match s.container with
  | some container => do
    let listening ← listensInside container s.port
    pure (listening, "in " ++ container)
  | none => do
    let host := s.host.getD "localhost"
    let listening ← Run.connect host s.port (s.timeout.getD limit)
    pure (listening, "on " ++ host)

def run (s : PortStep) : Trial (List String) := do
  let wanted := s.listening.getD true
  let (listening, place) ← s.look
  if listening = wanted then pure []
  else
    pure ["Port " ++ toString s.port ++ " " ++ place ++
      (if wanted then " is not listening" else " is listening but should not be")]

end Assay.PortStep

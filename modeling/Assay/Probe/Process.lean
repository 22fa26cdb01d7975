import Assay.Probe.Exec
import Assay.Text.Escaped

namespace Assay

/-- A row of a process listing with the user in its first column. -/
structure ProcessRow where
  user : String
  line : String
deriving DecidableEq

namespace ProcessStep

def limit : Duration := .seconds 10

def listCommand (name : String) : String := "ps aux | grep -- " ++ shellQuote name

/-- A listing in the style of System V, for systems that lack the other one. -/
def plainListCommand (name : String) : String := "ps -ef | grep -- " ++ shellQuote name

/-- The rows of a filtered listing without that of the filter itself. -/
def matchingRows (listing name : String) : List ProcessRow :=
  (Text.lines listing).filterMap fun line =>
    if Text.contains line ("grep -- " ++ name) then none
    else (Text.words line).head?.map fun user => ⟨user, line⟩

def countFailures (name : String) (count : Nat) : Option Comparison → List String
  | some c =>
    if c.holds (.ofNat count) then []
    else ["Process '" ++ name ++ "': expected count " ++ c.text ++ ", got " ++ toString count]
  | none => []

def userFailures (name : String) (rows : List ProcessRow) : Option String → List String
  | some user =>
    if rows.any (·.user == user) then []
    else
      ["Process '" ++ name ++ "': expected user " ++ user ++ ", found " ++
        Text.escapedList (rows.map (·.user))]
  | none => []

def failures (s : ProcessStep) (rows : List ProcessRow) : List String :=
  let wanted := s.running.getD true
  if rows.isEmpty then (if wanted then ["Process '" ++ s.name ++ "' is not running"] else [])
  else if !wanted then
    ["Process '" ++ s.name ++ "' should not be running, found " ++ toString rows.length ++
      " match(es)"]
  else countFailures s.name rows.length s.count ++ userFailures s.name rows s.user

def run (s : ProcessStep) (settings : StepSettings) : Trial (List String) := do
  let target ← settings.target s.container "process"
  let first ← Run.exec target (listCommand s.name) limit
  let listing ←
    if first.success && !(Text.trimChars first.stdout.toList).isEmpty then pure first.stdout
    else do
      let second ← Run.exec target (plainListCommand s.name) limit
      pure second.stdout
  pure (s.failures (matchingRows listing s.name))

end ProcessStep

end Assay

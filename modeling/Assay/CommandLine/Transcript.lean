import Assay.CommandLine.Help
import Assay.CommandLine.Plan
import Assay.Report.Render

namespace Assay.CommandLine

variable [Libraries]

structure Transcript where
  stdout : String
  stderr : String
  exitCode : Nat

def textOf (lines : List String) : String := String.join (lines.map (· ++ "\n"))

def exitCodeOf (success : Bool) : Nat := if success then 0 else 1

def misuseCode : Nat := 2

def errorLine (e : Error) : String := "Error: " ++ e.message

namespace Transcript

def failure (stdout : List String) (e : Error) : Transcript :=
  ⟨textOf stdout, textOf [errorLine e], exitCodeOf false⟩

def success (stdout : String) : Transcript := ⟨stdout, "", exitCodeOf true⟩

end Transcript

def sourceLine : Option String → String
  | some path => "# Loaded from " ++ path
  | none => "# No config file found, showing defaults"

def configurationTranscript : Except Error (Configuration × Option String) → Transcript
  | .error e => .failure [] e
  | .ok (c, source) =>
    match c.text with
    | .error e => .failure [sourceLine source] e
    | .ok text => .success (textOf [sourceLine source] ++ text)

def showConfiguration (configuration : Option String) (env : List (String × String)) :
    FileRun Transcript := do
  let result ← (Configuration.load configuration env).run
  pure (configurationTranscript result)

def faultLine (color : Bool) (e : Error) : String := Report.paint color .red "✗" ++ " " ++ e.message

def validationLine (color : Bool) (path : String) : Except Error Suite → String
  | .ok s =>
    Report.paint color .green "✓" ++ " " ++ path ++ " (" ++ s.name ++ ", " ++
      toString s.cases.length ++ " cases)"
  | .error e => faultLine color e

def validationTranscript (color : Bool) (files : List String)
    (suites : List (Except Error Suite)) : Transcript :=
  ⟨textOf (List.zipWith (validationLine color) files suites), "",
    exitCodeOf (loadFaults suites).isEmpty⟩

def validate (paths : List String) (color : Bool) : FileRun Transcript := do
  match ← findSuiteFiles paths with
  | .error e => pure (.failure [] e)
  | .ok files => do
    let suites ← FileRun.forEach Suite.load files
    pure (validationTranscript color files suites)

def eventLines (json color : Bool) (e : Event) : List String :=
  if json then [e.toValue.compact] else Report.render color e

def totalsLines (json color : Bool) (totals : Report.Totals) (faults : Nat) : List String :=
  if json then [] else totals.lines color faults

def runTranscript (json color : Bool) (faults : List Error) (events : List Event) : Transcript :=
  let totals := Report.Totals.ofEvents events
  ⟨textOf (events.flatMap (eventLines json color) ++
      totalsLines json color totals faults.length),
    textOf (faults.map (faultLine color)), exitCodeOf (totals.success faults.length)⟩

def Request.transcript : Request → Option Transcript
  | perform .. => none
  | help topic => some (.success (textOf (helpLines topic)))
  | version => some (.success (textOf [versionText]))
  | misuse => some ⟨"", textOf ["For more information, try '--help'."], misuseCode⟩

end Assay.CommandLine

import Assay.Probe.Exec
import Assay.Text.Escaped

namespace Assay.FileStep

variable [Libraries]

def limit : Duration := .seconds 10

def existsCommand (path : String) : String :=
  "test -e " ++ shellQuote path ++ " && echo yes || echo no"

def statCommand (format path : String) : String :=
  "stat -c '" ++ format ++ "' " ++ shellQuote path

def readCommand (path : String) : String := "cat " ++ shellQuote path

/-- A mode without blanks around it and zeros before it. -/
def plainMode (mode : String) : List Char :=
  match (Text.trimChars mode.toList).dropWhile (· == '0') with
  | [] => ['0']
  | cs => cs

def statFailure (path : String) (o : ExecOutput) : String :=
  "Could not stat " ++ path ++ ": " ++ Text.trim o.stderr

def modeFailures (path expected : String) (o : ExecOutput) : List String :=
  let actual := Text.trim o.stdout
  if !o.success then [statFailure path o]
  else if plainMode actual = plainMode expected then []
  else ["File " ++ path ++ ": expected permissions " ++ expected ++ ", got " ++ actual]

/-- An owner may be given with its group. -/
def ownerFormat (owner : String) : String := if owner.toList.contains ':' then "%U:%G" else "%U"

def ownerFailures (path expected : String) (o : ExecOutput) : List String :=
  let actual := Text.trim o.stdout
  if !o.success then [statFailure path o]
  else if actual = expected then []
  else ["File " ++ path ++ ": expected owner " ++ expected ++ ", got " ++ actual]

def sizeFailures (path : String) (expected : Comparison) (o : ExecOutput) : List String :=
  match Double.read? (Text.trimChars o.stdout.toList) with
  | some size =>
    if expected.holds size then []
    else
      ["File " ++ path ++ ": expected size " ++ expected.text ++ ", got " ++
        DecimalLayout.plain.write size]
  | none => ["Could not read size of " ++ path ++ ": " ++ Text.trim o.stderr]

def contentFailures (s : FileStep) (o : ExecOutput) : Except Error (List String) :=
  if o.success then
    TextChecks.failures ⟨s.contains, s.lacks, s.pattern, s.json⟩ ("File " ++ s.path) o.stdout
  else .ok ["Could not read " ++ s.path ++ ": " ++ Text.trim o.stderr]

/-- Ask about a property when something is wanted of it. -/
def inspect {α : Type} (target : String) (wanted : Option α) (command : α → String)
    (failures : α → ExecOutput → Except Error (List String)) : Trial (List String) :=
  match wanted with
  | none => pure []
  | some a => do
    let o ← Run.exec target (command a) limit
    failures a o

def runExisting (s : FileStep) (target : String) : Trial (List String) := do
  let byMode ← inspect target s.permissions (fun _ => statCommand "%a" s.path)
    fun mode o => .ok (modeFailures s.path mode o)
  let byOwner ← inspect target s.owner (fun owner => statCommand (ownerFormat owner) s.path)
    fun owner o => .ok (ownerFailures s.path owner o)
  let bySize ← inspect target s.size (fun _ => statCommand "%s" s.path)
    fun size o => .ok (sizeFailures s.path size o)
  let byContent ← inspect target (if s.wantsContent then some () else none)
    (fun _ => readCommand s.path) fun _ o => s.contentFailures o
  pure (byMode ++ (byOwner ++ (bySize ++ byContent)))

/-- First it is asked whether the file exists. Nothing more is asked when it should not, or when
that is the failure. -/
def run (s : FileStep) (settings : StepSettings) : Trial (List String) := do
  let target ← settings.target s.container "file"
  let o ← Run.exec target (existsCommand s.path) limit
  let found := Text.trim o.stdout == "yes"
  let wanted := s.present.getD true
  if found != wanted then
    pure [if wanted then "File " ++ s.path ++ " does not exist"
      else "File " ++ s.path ++ " exists but should not"]
  else if found then s.runExisting target
  else pure []

end Assay.FileStep

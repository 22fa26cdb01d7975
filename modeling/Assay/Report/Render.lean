import Assay.Event
import Assay.Json.Print
import Assay.Report.Style
import Assay.Text.Split

namespace Assay.Report

def logLines : Nat := 10

def indent (width : Nat) (line : String) : String :=
  String.ofList (List.replicate width ' ') ++ line

def lastLines (n : Nat) (text : String) : List String :=
  let lines := Text.lines text
  lines.drop (lines.length - n)

/-- A mock server that answers with a list has recorded that many requests. -/
def mockText : Value → String
  | .array items => toString items.length ++ " recorded"
  | v => v.compact

def diagnosticsLines (color : Bool) (r : DiagnosticsReport) : List String :=
  (Entries.sorted r.containerHealth).map (fun e =>
    indent 6 (paint color .cyan "health" ++ " " ++ e.1 ++ ": " ++ e.2)) ++
  (Entries.sorted r.containerLogs).flatMap (fun e =>
    indent 6 (paint color .cyan "logs" ++ " " ++ e.1 ++ ":") ::
      (lastLines logLines e.2).map fun l => indent 8 (paint color .dimmed l)) ++
  (Entries.sorted r.mockRequests).map fun e =>
    indent 6 (paint color .cyan "mock" ++ " " ++ e.1 ++ ": " ++ mockText e.2)

def attemptsText (n : Nat) : String := ", " ++ toString n ++ " attempts"

/-- A passed case tells its attempts when there were several, a failed one whenever they were
counted. -/
def retriedText (failed : Bool) : Option (List Attempt) → String
  | some as => if failed || 1 < as.length then attemptsText as.length else ""
  | none => ""

def timeText (color : Bool) (millis : Nat) (more : String) : String :=
  paint color .dimmed ("(" ++ toString millis ++ "ms" ++ more ++ ")")

def render (color : Bool) : Event → List String
  | .suiteStart suite description _ =>
    ("\n" ++ paint color .boldBlue "Suite:" ++ " " ++ paint color .boldWhite suite) ::
      (description.map fun d => indent 2 (paint color .dimmed d)).toList
  | .caseStart .. => []
  | .casePass _ name millis attempts =>
    [indent 2 (paint color .green "✓" ++ " " ++ name ++ " " ++
      timeText color millis (retriedText false attempts))]
  | .caseFail _ name millis error diagnostics attempts =>
    indent 2 (paint color .red "✗" ++ " " ++ paint color .red name ++ " " ++
      timeText color millis (retriedText true attempts)) ::
      ((Text.lines error).map (indent 6) ++
        (diagnostics.map (diagnosticsLines color)).getD [])
  | .caseSkip _ name reason =>
    [indent 2 (paint color .yellow "○" ++ " " ++ paint color .dimmed name ++ " " ++
      paint color .dimmed ("(" ++ reason ++ ")"))]
  | .suiteEnd _ passed failed skipped millis =>
    let failedText := toString failed ++ " failed"
    [indent 2 (paint color .green (toString passed) ++ " passed, " ++
      (if failed > 0 then paint color .red failedText else failedText) ++ ", " ++
      toString skipped ++ " skipped " ++ timeText color millis "")]
  | .log .. => []

structure Totals where
  suites : Nat := 0
  passed : Nat := 0
  failed : Nat := 0
  skipped : Nat := 0
deriving DecidableEq

namespace Totals

def record (t : Totals) : Event → Totals
  | .suiteEnd .. => { t with suites := t.suites + 1 }
  | .casePass .. => { t with passed := t.passed + 1 }
  | .caseFail .. => { t with failed := t.failed + 1 }
  | .caseSkip .. => { t with skipped := t.skipped + 1 }
  | _ => t

def ofEvents (es : List Event) : Totals := es.foldl record {}

def success (t : Totals) (loadErrors : Nat) : Bool := t.failed == 0 && loadErrors == 0

def lines (t : Totals) (color : Bool) (loadErrors : Nat) : List String :=
  let verdict :=
    if t.success loadErrors then paint color .boldGreen "PASSED"
    else paint color .boldRed "FAILED"
  ("\n" ++ verdict ++ " " ++ toString t.suites ++ " suites: " ++ toString t.passed ++
    " passed, " ++ toString t.failed ++ " failed, " ++ toString t.skipped ++ " skipped") ::
    if loadErrors > 0 then
      [paint color .red (toString loadErrors ++ " suite file(s) failed to load")]
    else []

end Totals

end Assay.Report

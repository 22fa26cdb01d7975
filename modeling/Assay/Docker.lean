import Assay.Host
import Assay.Json.Read
import Assay.Libraries
import Assay.Text.Utf8

namespace Assay

variable [Libraries]

structure Docker where
  /-- The program; looked for by its name when absent. -/
  binary : Option String

namespace Docker

def name : String := "docker"

def program (d : Docker) : HostRun (Except Error String) :=
  match d.binary with
  | some p => pure (.ok p)
  | none => do
    match ← HostRun.locate name with
    | some p => pure (.ok p)
    | none => pure (.error (.toolNotFound name))

def withProgram {α : Type} (d : Docker) (f : String → HostRun (Except Error α)) :
    HostRun (Except Error α) := do
  match ← d.program with
  | .ok p => f p
  | .error e => pure (.error e)

def killed : Int := -1

def execOutput (target command : String) (limit : Duration) : ToolReply → Except Error ExecOutput
  | .ended stdout stderr exitCode =>
    .ok ⟨Text.ofBytesLossy stdout, Text.ofBytesLossy stderr, exitCode.getD killed⟩
  | .refused reason => .error (.remote ("failed to run docker exec: " ++ reason))
  | .silent => .error (.timeout ("Command '" ++ command ++ "' in '" ++ target ++ "'") limit.millis)

def exec (d : Docker) (target command : String) (limit : Duration) :
    HostRun (Except Error ExecOutput) :=
  d.withProgram fun p => do
    let reply ← HostRun.launch p ["exec", target, "sh", "-c", command] limit
    pure (execOutput target command limit reply)

def toolLimit : Duration := .seconds 10

def mockLimit : Duration := .seconds 5

def printed : ToolReply → Except String String
  | .ended stdout stderr exitCode =>
    let text := Text.ofBytesLossy stdout ++ Text.ofBytesLossy stderr
    if exitCode = some 0 then .ok text else .error (Text.trim text)
  | .refused reason => .error ("failed to run docker: " ++ reason)
  | .silent => .error ("timed out after " ++ toolLimit.text)

def logsArguments (container : String) : List String := ["logs", "--tail", "50", container]

/-- Asks for the health of a container, or for its state when it has no health check. -/
def healthFormat : String :=
  "\x7b\x7bif .State.Health\x7d\x7d\x7b\x7b.State.Health.Status\x7d\x7d" ++
    "\x7b\x7belse\x7d\x7d\x7b\x7b.State.Status\x7d\x7d\x7b\x7bend\x7d\x7d"

def healthArguments (container : String) : List String :=
  ["inspect", "--format", healthFormat, container]

def networkArguments (network : String) : List String := ["network", "inspect", network]

def logsText : Except String String → String
  | .ok text => text
  | .error reason => "<logs unavailable: " ++ reason ++ ">"

def healthText : Except String String → String
  | .ok text => Text.trim text
  | .error reason => "unknown (" ++ reason ++ ")"

def unavailable (reason : String) : Value := .string ("unavailable: " ++ reason)

/-- A network as the tool describes it; a text when that is no JSON. -/
def networkValue : Except String String → Value
  | .ok text =>
    match Json.read text with
    | .ok v => v
    | .error _ => .string text
  | .error reason => unavailable reason

def ask (program : String) (arguments : List String) : HostRun (Except String String) := do
  let reply ← HostRun.launch program arguments toolLimit
  pure (printed reply)

def addContainer (program : String) (report : DiagnosticsReport) (container : String) :
    HostRun DiagnosticsReport := do
  let logs ← ask program (logsArguments container)
  let health ← ask program (healthArguments container)
  pure
    { report with
      containerLogs := report.containerLogs.put container (logsText logs)
      containerHealth := report.containerHealth.put container (healthText health) }

def addNetwork (program : String) (report : DiagnosticsReport) (network : String) :
    HostRun DiagnosticsReport := do
  let answer ← ask program (networkArguments network)
  pure { report with network := some (networkValue answer) }

def mockAddress (endpoint : String) : String := withoutSlashes endpoint ++ "/__mock/requests"

def mockValue (url : Url) : HttpReply → Value
  | .response _ _ body =>
    match (Text.ofBytes? body).map Json.read with
    | some (.ok v) => v
    | _ => unavailable HttpFault.brokenBody.message
  | .unreachable => unavailable (HttpFault.unreachable url.text).message
  | .silent | .stalled _ => unavailable ("timed out after " ++ mockLimit.text)
  | .broken _ => unavailable HttpFault.brokenBody.message

def mockRequests (endpoint : String) : HostRun Value :=
  match Libraries.readAddress (mockAddress endpoint) with
  | .malformed => pure (unavailable HttpFault.malformedRequest.message)
  | .foreign url => pure (unavailable (HttpFault.foreignScheme url).message)
  | .web url => do
    let reply ← HostRun.send ⟨"GET", url, [], none⟩ mockLimit
    pure (mockValue url reply)

def addMock (report : DiagnosticsReport) (endpoint : String) : HostRun DiagnosticsReport := do
  let v ← mockRequests endpoint
  pure { report with mockRequests := Entries.put report.mockRequests endpoint v }

def addDocker (program : String) (request : DiagnosticsRequest) : HostRun DiagnosticsReport := do
  let report ← Script.each (addContainer program) .empty request.containers
  Script.each (addNetwork program) report request.network.toList

/-- Look at what is asked for. The tool is needed only for containers and the network; a part that
cannot be looked at tells why. -/
def collect (d : Docker) (request : DiagnosticsRequest) :
    HostRun (Except Error DiagnosticsReport) := do
  let report ←
    if request.containers.isEmpty && request.network.isNone then pure (.ok .empty)
    else d.withProgram fun p => do
      let report ← addDocker p request
      pure (.ok report)
  match report with
  | .error e => pure (.error e)
  | .ok report => do
    let report ← Script.each addMock report request.mockEndpoints
    pure (.ok report)

end Docker

def Query.onHost (d : Docker) : (q : Query) → HostRun q.Answer
  | .exec target command limit => d.exec target command limit
  | .collect request => d.collect request
  | .send request limit => .ask (.send request limit) fun (r : HttpReply) => .done r
  | .connect host port limit => .ask (.connect host port limit) fun (r : Bool) => .done r
  | .sleep nanos => .ask (.sleep nanos) fun (r : Unit) => .done r
  | .sleepForever => .ask .sleepForever fun (r : Empty) => nomatch r
  | .clock => .ask .clock fun (r : Nat) => .done r
  | .emit event => .ask (.emit event) fun (r : Unit) => .done r

end Assay

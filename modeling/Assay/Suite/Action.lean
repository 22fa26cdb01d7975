import Assay.Document.Record
import Assay.Json.Print
import Assay.Text.Case
import Assay.Unit.Comparison
import Assay.Unit.Duration

namespace Assay

/-- An HTTP request. An absolute `url` wins over the `path` below the base URL. -/
structure RequestStep where
  method : String
  path : Option String
  url : Option String
  headers : Fields
  body : Option Value
  timeout : Option Duration

structure ExecStep where
  command : String
  container : Option String

structure FileStep where
  path : String
  container : Option String
  present : Option Bool
  permissions : Option String
  owner : Option String
  size : Option Comparison
  contains : Option String
  lacks : Option String
  pattern : Option String
  json : Option Value

structure ProcessStep where
  name : String
  container : Option String
  running : Option Bool
  count : Option Comparison
  user : Option String

/-- Whether a port is open, seen from inside a container or by connecting to it. -/
structure PortStep where
  port : Nat
  host : Option String
  container : Option String
  listening : Option Bool
  timeout : Option Duration

inductive Action
  | request (step : RequestStep)
  | exec (step : ExecStep)
  | file (step : FileStep)
  | process (step : ProcessStep)
  | port (step : PortStep)

def Value.optionalText : Option String → Value := Value.ofOption .string

def Value.optionalBool : Option Bool → Value := Value.ofOption .bool

namespace RequestStep

def record : Record RequestStep :=
  RequestStep.mk <$> .optional "method" "GET" .text <*> .option "path" .text <*>
    .option "url" .text <*> .optional "headers" [] .fields <*> .option "body" .value <*>
    .option "timeout" Duration.decode

def decode : Decoder RequestStep := record.decode "RequestStep" false

def toValue (s : RequestStep) : Value :=
  .object
    [("method", .string s.method), ("path", .optionalText s.path), ("url", .optionalText s.url),
      ("headers", .object s.headers), ("body", .ofOption id s.body),
      ("timeout", .ofOption Duration.toValue s.timeout)]

end RequestStep

namespace ExecStep

def record : Record ExecStep :=
  ExecStep.mk <$> .required "command" .text <*> .option "container" .text

def decode : Decoder ExecStep := record.decode "ExecStep" false

def toValue (s : ExecStep) : Value :=
  .object [("command", .string s.command), ("container", .optionalText s.container)]

end ExecStep

namespace FileStep

def record : Record FileStep :=
  FileStep.mk <$> .required "path" .text <*> .option "container" .text <*>
    .option "exists" .bool <*> .option "permissions" .looseText <*> .option "owner" .text <*>
    .option "size" Comparison.decode <*> .option "contains" .text <*>
    .option "notContains" .text <*> .option "matches" .text <*> .option "json" .value

def decode : Decoder FileStep := record.decode "FileStep" false

def toValue (s : FileStep) : Value :=
  .object
    [("path", .string s.path), ("container", .optionalText s.container),
      ("exists", .optionalBool s.present), ("permissions", .optionalText s.permissions),
      ("owner", .optionalText s.owner), ("size", .ofOption Comparison.toValue s.size),
      ("contains", .optionalText s.contains), ("notContains", .optionalText s.lacks),
      ("matches", .optionalText s.pattern), ("json", .ofOption id s.json)]

def wantsContent (s : FileStep) : Bool :=
  s.contains.isSome || s.lacks.isSome || s.pattern.isSome || s.json.isSome

end FileStep

namespace ProcessStep

def record : Record ProcessStep :=
  ProcessStep.mk <$> .required "name" .text <*> .option "container" .text <*>
    .option "running" .bool <*> .option "count" Comparison.decode <*> .option "user" .text

def decode : Decoder ProcessStep := record.decode "ProcessStep" false

def toValue (s : ProcessStep) : Value :=
  .object
    [("name", .string s.name), ("container", .optionalText s.container),
      ("running", .optionalBool s.running), ("count", .ofOption Comparison.toValue s.count),
      ("user", .optionalText s.user)]

end ProcessStep

namespace PortStep

def record : Record PortStep :=
  PortStep.mk <$> .required "port" .port <*> .option "host" .text <*> .option "container" .text <*>
    .option "listening" .bool <*> .option "timeout" Duration.decode

def decode : Decoder PortStep := record.decode "PortStep" false

def toValue (s : PortStep) : Value :=
  .object
    [("port", .nat s.port), ("host", .optionalText s.host),
      ("container", .optionalText s.container),
      ("listening", .optionalBool s.listening), ("timeout", .ofOption Duration.toValue s.timeout)]

end PortStep

namespace Action

def kind : Action → String
  | request _ => "request"
  | exec _ => "exec"
  | file _ => "file"
  | process _ => "process"
  | port _ => "port"

def kinds : List String := ["request", "exec", "file", "process", "port"]

def describe : Action → String
  | request s => Text.upper s.method ++ " " ++ ((s.url.or s.path).getD "/")
  | exec s => "exec: " ++ s.command
  | file s => "file: " ++ s.path
  | process s => "process: " ++ s.name
  | port s => "port: " ++ toString s.port

def bodyValue : Action → Value
  | request s => s.toValue
  | exec s => s.toValue
  | file s => s.toValue
  | process s => s.toValue
  | port s => s.toValue

def toValue (a : Action) : Value := .object [(a.kind, a.bodyValue)]

def decodeKind (kind : String) : Decoder Action := fun o d =>
  match kind with
  | "request" => (RequestStep.decode o d).map request
  | "exec" => (ExecStep.decode o d).map exec
  | "file" => (FileStep.decode o d).map file
  | "process" => (ProcessStep.decode o d).map process
  | "port" => (PortStep.decode o d).map port
  | kind => .error (.unknownVariant kind kinds)

def decode : Decoder Action := fun o d =>
  match d with
  | .mapping [(.text kind, d)] => decodeKind kind o d
  | .mapping _ => .error (.value .mapping "map with a single key")
  | d => Decoder.mismatch d "enum StepAction"

end Action

end Assay

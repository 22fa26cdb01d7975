import Assay.CommandLine.Flag
import Assay.Number.Reading
import Assay.Text.Split
import Assay.Unit.Duration

namespace Assay.CommandLine

structure RunArguments where
  paths : List String
  baseUrl : Option String
  container : Option String
  timeout : Option Duration
  limit : Option Nat
  diagnostics : Bool
  vars : List (String × String)
  filter : Option String
  json : Bool

inductive Command
  | run (arguments : RunArguments)
  | validate (paths : List String)
  | config

inductive CommandName
  | run
  | validate
  | config
  | help
deriving DecidableEq

inductive Request
  | perform (command : Command) (configuration : Option String) (verbose : Bool)
  | help (topic : Option CommandName)
  | version
  | misuse

def assignment? (text : String) : Option (String × String) := do
  let (name, value) ← Text.cutAt '=' text.toList
  let name := Text.trimChars name
  if name.isEmpty then none else some (String.ofList name, String.ofList value)

def count? (text : String) : Option Nat := readUnsigned? (Nat.pow 2 64 - 1) text.toList

def isPath (text : String) : Bool := text != ""

namespace Flag

def config : Flag :=
  ⟨none, "config", .value "CONFIG" isPath false,
    "Runner configuration file (default: ./e2e.toml, then the user config dir)"⟩

def verbose : Flag := ⟨some 'v', "verbose", .switch, "Debug logging on stderr"⟩

def printHelp : Flag := ⟨some 'h', "help", .help, "Print help"⟩

def printVersion : Flag := ⟨some 'V', "version", .version, "Print version"⟩

def ofText (long name help : String) : Flag :=
  ⟨none, long, .value name (fun _ => true) false, help⟩

def baseUrl : Flag := ofText "base-url" "BASE_URL" "Base URL for relative request paths"

def container : Flag :=
  ofText "container" "CONTAINER" "Default container for exec/file/process/port steps"

def timeout : Flag :=
  ⟨none, "timeout", .value "TIMEOUT" (fun s => (Duration.parse? s).isSome) false,
    "Default request timeout (e.g. 500ms, 10s)"⟩

def parallel : Flag :=
  ⟨none, "parallel", .value "PARALLEL" (fun s => (count? s).isSome) false,
    "Maximum parallel suites in flight"⟩

def diagnostics : Flag :=
  ⟨none, "diagnostics", .switch, "Collect container logs and mock requests when a case fails"⟩

def vars : Flag :=
  ⟨none, "var", .value "VARS" (fun s => (assignment? s).isSome) true,
    "Extra config variable, usable as \x7b\x7bconfig.KEY\x7d\x7d Can be given multiple times: " ++
      "--var api=v2 --var tenant=acme"⟩

def filter : Flag := ofText "filter" "FILTER" "Only run cases whose name contains this text"

def json : Flag :=
  ⟨none, "json", .switch, "Print events as JSON lines instead of the console report"⟩

end Flag

def mainFlags : List Flag := [.config, .verbose, .printHelp, .printVersion]

namespace CommandName

def all : List CommandName := [run, validate, config, help]

def text : CommandName → String
  | run => "run"
  | validate => "validate"
  | config => "config"
  | help => "help"

def ofText? (s : String) : Option CommandName := all.find? fun c => c.text == s

def flags : CommandName → List Flag
  | run => [.baseUrl, .config, .container, .verbose, .timeout, .parallel, .diagnostics, .vars,
      .filter, .json, .printHelp]
  | validate | config => [.config, .verbose, .printHelp]
  | help => []

end CommandName

def paths? (g : Given) : Option (List String) :=
  if g.words.isEmpty || !g.words.all isPath then none else some g.words

def RunArguments.ofGiven? (g : Given) : Option RunArguments :=
  (paths? g).map fun paths =>
    { paths := paths
      baseUrl := g.value? "base-url"
      container := g.value? "container"
      timeout := (g.value? "timeout").bind Duration.parse?
      limit := (g.value? "parallel").bind count?
      diagnostics := g.has "diagnostics"
      vars := (g.values "var").filterMap assignment?
      filter := g.value? "filter"
      json := g.has "json" }

def Command.ofGiven? (g : Given) : CommandName → Option Command
  | .run => (RunArguments.ofGiven? g).map .run
  | .validate => (paths? g).map .validate
  | .config => if g.words.isEmpty then some .config else none
  | .help => none

def Stop.request (topic : Option CommandName) : Stop → Request
  | help => .help topic
  | version => .version
  | misuse => .misuse

def helpRequest : List String → Request
  | [] => .help none
  | [word] =>
    match CommandName.ofText? word with
    | some c => .help (some c)
    | none => .misuse
  | _ => .misuse

/-- What the words behind the options of the program ask for. An option behind the command counts
before the same one in front of it. -/
def commandRequest (g : Given) : Request :=
  match g.words with
  | [] => .misuse
  | word :: arguments =>
    match CommandName.ofText? word with
    | none => .misuse
    | some .help => helpRequest arguments
    | some name =>
      match readArguments name.flags false arguments {} with
      | .error stop => stop.request (some name)
      | .ok own =>
        match Command.ofGiven? own name with
        | none => .misuse
        | some command =>
          .perform command ((own.value? "config").or (g.value? "config"))
            (own.has "verbose" || g.has "verbose")

def Request.ofArguments (arguments : List String) : Request :=
  match readArguments mainFlags true arguments {} with
  | .error stop => stop.request none
  | .ok g => commandRequest g

end Assay.CommandLine

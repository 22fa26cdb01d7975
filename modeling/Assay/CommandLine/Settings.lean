import Assay.CommandLine.Arguments
import Assay.Configuration
import Assay.Files.Tree

namespace Assay

abbrev FileTrial (α : Type) := ExceptT Error (Script FileQuery.Answer) α

namespace Configuration

variable [Libraries]

def localFile : String := "e2e.toml"

def userDirectory? (env : List (String × String)) : Option String :=
  match (env.lookup "XDG_CONFIG_HOME").filter (Text.startsWith · "/") with
  | some d => some d
  | none => ((env.lookup "HOME").filter (· != "")).map (Path.join · ".config")

def candidates (env : List (String × String)) : List String :=
  localFile :: ((userDirectory? env).map (Path.join · "e2e-runner/config.toml")).toList

def ofFile (path : String) : FileTrial Configuration := do
  match ← (FileRun.read path : FileRun _) with
  | .ok text => ofText text
  | .error fault => throw (.unreadable path fault)

def ofCandidates : List String → FileTrial (Configuration × Option String)
  | [] => pure (usual, none)
  | path :: paths => do
    match ← (FileRun.look path : FileRun _) with
    | some .file => do
      let c ← ofFile path
      pure (c, some path)
    | _ => ofCandidates paths

/-- The settings and the file they come from. A file that is named must be there. -/
def load (named : Option String) (env : List (String × String)) :
    FileTrial (Configuration × Option String) :=
  match named with
  | some path => do
    let c ← ofFile path
    pure (c, some path)
  | none => ofCandidates (candidates env)

def override (c : Configuration) (a : CommandLine.RunArguments) : Configuration :=
  { c with
    defaults :=
      { baseUrl := a.baseUrl.getD c.defaults.baseUrl
        container := a.container.or c.defaults.container
        timeout := a.timeout.or c.defaults.timeout }
    limit := a.limit.or c.limit
    diagnostics := { c.diagnostics with enabled := c.diagnostics.enabled || a.diagnostics }
    vars :=
      a.vars.foldl (fun vs v => Entries.put vs v.1 (.string v.2)) c.vars }

end Configuration

end Assay

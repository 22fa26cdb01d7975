import Assay.CommandLine.Settings
import Assay.Files.Suites
import Assay.Runner.Batch
import Assay.Suite.Load

namespace Assay

variable [Libraries]

def Suite.load (path : String) : FileRun (Except Error Suite) := do
  let content ← FileRun.read path
  pure (ofFile path content)

namespace CommandLine

/-- What a run is going to do, and the errors of the files that could not be loaded. -/
structure Plan where
  runner : Runner
  batch : List BatchEntry
  limit : Option Nat
  context : Context
  faults : List Error

def runOptions (c : Configuration) (a : RunArguments) : RunOptions :=
  { baseUrl := c.defaults.baseUrl
    timeout := c.defaults.timeout
    container := c.defaults.container
    diagnostics := c.diagnostics.request
    filter := a.filter }

def loaded (suites : List (Except Error Suite)) : List Suite :=
  suites.filterMap Except.toOption

def loadFaults (suites : List (Except Error Suite)) : List Error :=
  suites.filterMap fun s =>
    match s with
    | .ok _ => none
    | .error e => some e

def Plan.ofSuites (c : Configuration) (a : RunArguments) (env : List (String × String))
    (suites : List (Except Error Suite)) : Plan :=
  { runner := ⟨c.diagnostics.enabled, c.retry⟩
    batch := (loaded suites).map fun s => ⟨s, runOptions c a⟩
    limit := c.limit
    context := ⟨Entries.sorted c.vars, [], env⟩
    faults := loadFaults suites }

/-- Read the settings and the suites. A suite that cannot be loaded does not hinder the others. -/
def prepare (a : RunArguments) (configuration : Option String) (env : List (String × String)) :
    FileTrial Plan := do
  let (c, _) ← Configuration.load configuration env
  let files ← ExceptT.mk (findSuiteFiles a.paths)
  let suites ← (FileRun.forEach Suite.load files : FileRun _)
  pure (Plan.ofSuites (c.override a) a env suites)

end CommandLine

end Assay

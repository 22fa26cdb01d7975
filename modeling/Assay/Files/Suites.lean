import Assay.Files.Tree

namespace Assay

/-- Files with these extensions, whatever their case, are taken from directories. -/
def suiteExtensions : List String := ["yaml", "yml", "json"]

def isSuiteFile (path : String) : Bool :=
  (Path.extension? path).any fun ext => suiteExtensions.any (Text.sameIgnoringCase ext)

namespace Tree

mutual

def scan (path : String) : Tree → Except Error (List String)
  | file => .ok (if isSuiteFile path then [path] else [])
  | directory entries => scanEntries path entries
  | unlisted reason => .error (.io reason)
termination_by structural t => t

def scanEntries (path : String) : List (String × Tree) → Except Error (List String)
  | [] => .ok []
  | (name, t) :: es => do
    let here ← t.scan (Path.join path name)
    let rest ← scanEntries path es
    pure (here ++ rest)
termination_by structural es => es

end

end Tree

/-- The files that arguments name: a file whatever its name, and the suite files below a
directory, in the order of their paths. -/
def collectSuiteFiles : List (String × Option Tree) → Except Error (List String)
  | [] => .ok []
  | (path, none) :: _ => .error (.noSuchPath path)
  | (path, some t) :: rest => do
    let files ← match t with
      | .file => .ok [path]
      | .directory _ | .unlisted _ => (t.scan path).map fun found => found.mergeSort Path.atMost
    let more ← collectSuiteFiles rest
    pure (files ++ more)

/-- Look at the arguments and find their files; without any file there is nothing to do. -/
def findSuiteFiles (paths : List String) : FileRun (Except Error (List String)) := do
  let places ← FileRun.forEach FileRun.look paths
  match collectSuiteFiles (paths.zip places) with
  | .error e => pure (.error e)
  | .ok [] => pure (.error .noSuites)
  | .ok files => pure (.ok files)

end Assay

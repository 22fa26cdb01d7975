import Assay.Error
import Assay.Files.Path
import Assay.Json.Read
import Assay.Libraries
import Assay.Suite.Basic

namespace Assay.Suite

variable [Libraries]

def named (s : Suite) : Except Error Suite :=
  if s.isNamed then .ok s else .error .namelessSuite

def ofJson (text : String) : Except Error Suite :=
  match Json.parse text with
  | .error fault => .error (.json (.notJson fault))
  | .ok v =>
    match decode .jsonText (.ofValue v) with
    | .error m => .error (.json (.mismatch .jsonText m))
    | .ok s => named s

/-- A suite from YAML text. Repeated keys make a text malformed unless they are in a place that
takes the last of them. -/
def ofYaml (text : String) : Except Error Suite :=
  match Libraries.readYaml text with
  | .error reason => .error (.yaml (.malformed reason))
  | .ok d =>
    match decode .yaml d with
    | .error m =>
      .error (.yaml (if d.hasRepeatedKey then .malformed (m.message .yaml) else .mismatch .yaml m))
    | .ok s => named s

/-- JSON by the extension of the file, whatever its case; YAML otherwise. -/
def isJsonFile (path : String) : Bool :=
  (Path.extension? path).any fun ext => Text.sameIgnoringCase ext "json"

/-- An error in the text of a file names the file. -/
def inFile (path : String) : Error → Error
  | .json fault => .suite path fault
  | .yaml fault => .suite path fault
  | .namelessSuite => .namelessSuiteFile path
  | e => e

def ofFile (path : String) (content : Except FileFault String) : Except Error Suite :=
  match content with
  | .error fault => .error (.unreadable path fault)
  | .ok text => (if isJsonFile path then ofJson text else ofYaml text).mapError (inFile path)

end Assay.Suite

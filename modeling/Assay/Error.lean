import Assay.Document.Fault
import Assay.Json.Fault

namespace Assay

/-- Why a text is not the document that was wanted: it breaks the rules of its format, or it has
another shape. -/
inductive DocumentFault
  | malformed (reason : String)
  | notJson (fault : Json.Fault)
  | mismatch (origin : Origin) (fault : Mismatch)

def DocumentFault.message : DocumentFault → String
  | malformed reason => reason
  | notJson fault => fault.message
  | mismatch origin fault => fault.message origin

inductive FileFault
  | absent
  | directory
  | notText

def FileFault.message : FileFault → String
  | absent => "No such file or directory (os error 2)"
  | directory => "Is a directory (os error 21)"
  | notText => "stream did not contain valid UTF-8"

inductive HttpFault
  | malformedRequest
  | foreignScheme (url : String)
  | unreachable (url : String)
  | brokenBody

def HttpFault.message : HttpFault → String
  | malformedRequest => "builder error"
  | foreignScheme url => "builder error for url (" ++ url ++ ")"
  | unreachable url => "error sending request for url (" ++ url ++ ")"
  | brokenBody => "error decoding response body"

/-- What keeps a suite or a step from being run at all. A failed check is no error. -/
inductive Error
  | invalidComparison (text : String)
  | namelessSuite
  | noSuites
  | malformedConfiguration (reason : String)
  | invalidDuration (text : String)
  | suite (path : String) (fault : DocumentFault)
  | namelessSuiteFile (path : String)
  | noAction (step : String)
  | unknownMethod (method : String)
  | invalidPattern (pattern reason : String)
  | http (fault : HttpFault)
  | timeout (operation : String) (millis : Nat)
  | missingContainer (kind : String)
  | toolNotFound (tool : String)
  | remote (reason : String)
  | io (reason : String)
  | unreadable (path : String) (fault : FileFault)
  | noSuchPath (path : String)
  | json (fault : DocumentFault)
  | yaml (fault : DocumentFault)
  | internal (reason : String)

def Error.message : Error → String
  | invalidComparison text => Assay.invalidComparison text
  | namelessSuite => "Configuration error: suite 'name' must not be empty"
  | noSuites => "Configuration error: no suite files found"
  | malformedConfiguration reason => "Invalid configuration file: " ++ reason
  | invalidDuration text => Assay.invalidDuration text
  | suite path fault => "Failed to load suite '" ++ path ++ "': " ++ fault.message
  | namelessSuiteFile path =>
    "Failed to load suite '" ++ path ++ "': suite 'name' must not be empty"
  | noAction step =>
    "Invalid step: '" ++ step ++ "' has none of request, exec, file, process, port"
  | unknownMethod method => "Invalid step: unknown HTTP method '" ++ method ++ "'"
  | invalidPattern pattern reason => "Invalid pattern '" ++ pattern ++ "': " ++ reason
  | http fault => "HTTP error: " ++ fault.message
  | timeout operation millis => operation ++ " timed out after " ++ toString millis ++ "ms"
  | missingContainer kind =>
    "No container given for " ++ kind ++
      " step. Set 'container' on the step, the suite, or in the runner config"
  | toolNotFound tool => "'" ++ tool ++ "' not found in PATH"
  | remote reason => "Remote command failed: " ++ reason
  | io reason => "IO error: " ++ reason
  | unreadable path fault => "Failed to read file '" ++ path ++ "': " ++ fault.message
  | noSuchPath path => "Failed to read file '" ++ path ++ "': no such file or directory"
  | json fault => "JSON error: " ++ fault.message
  | yaml fault => "YAML error: " ++ fault.message
  | internal reason => "Internal error: " ++ reason

end Assay

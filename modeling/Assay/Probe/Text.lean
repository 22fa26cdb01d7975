import Assay.Check.Evaluate
import Assay.Json.Read

namespace Assay

structure TextChecks where
  contains : Option String
  lacks : Option String
  pattern : Option String
  json : Option Value

namespace TextChecks

variable [Libraries]

def containsFailures (label text : String) : Option String → List String
  | some needle =>
    if Text.contains text needle then []
    else
      [label ++ " does not contain '" ++ needle ++ "'. Got: '" ++ Text.clip previewLimit text ++
        "'"]
  | none => []

def lacksFailures (label text : String) : Option String → List String
  | some needle =>
    if Text.contains text needle then [label ++ " unexpectedly contains '" ++ needle ++ "'"]
    else []
  | none => []

def patternFailures (label text : String) : Option String → Except Error (List String)
  | some pattern => do
    let occurs ← Check.compile pattern
    if occurs text then pure []
    else
      pure [label ++ " does not match /" ++ pattern ++ "/. Got: '" ++
        Text.clip previewLimit text ++ "'"]
  | none => .ok []

def jsonFailures (label text : String) : Option Value → Except Error (List String)
  | some expected =>
    match Json.read text with
    | .ok v => (Check.body v expected label).map Check.failures
    | .error fault => .ok [label ++ " is not valid JSON: " ++ fault.message]
  | none => .ok []

def failures (c : TextChecks) (label text : String) : Except Error (List String) := do
  let byPattern ← patternFailures label text c.pattern
  let byJson ← jsonFailures label text c.json
  pure (containsFailures label text c.contains ++ (lacksFailures label text c.lacks ++
    (byPattern ++ byJson)))

end TextChecks

end Assay

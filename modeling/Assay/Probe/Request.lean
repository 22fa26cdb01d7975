import Assay.Context
import Assay.Expression.Evaluate
import Assay.Probe.Exec
import Assay.Text.Utf8

namespace Assay

variable [Libraries]

namespace Response

/-- Header values that do not show are ignored. -/
def isShown (s : String) : Bool :=
  s.toList.all fun c => c == '\t' || (32 ≤ c.toNat && c.toNat < 127)

/-- Headers with their names in small letters; the last of a name counts. -/
def headersOf (headers : List (String × String)) : List (String × String) :=
  Entries.ofList ((headers.filter fun h => isShown h.2).map fun h => (Text.lower h.1, h.2))

def isJson (headers : List (String × String)) : Bool :=
  (headers.lookup RequestStep.contentType).any fun kind => Text.contains kind "json"

/-- The body of a response: a text unless its headers say JSON, and null when that is blank. -/
def bodyOf (headers : List (String × String)) (text : String) : Except Error Value :=
  if !isJson headers then .ok (.string text)
  else if (Text.trimChars text.toList).isEmpty then .ok .null
  else
    match Json.read text with
    | .ok v => .ok v
    | .error fault => .error (.json (.notJson fault))

end Response

namespace RequestStep

def usualLimit : Duration := .seconds 30

def limit (s : RequestStep) (settings : StepSettings) : Duration :=
  (s.timeout.or settings.timeout).getD usualLimit

/-- The response that a reply brings, or why there is none. `name` is the request in messages. -/
def response (name : String) (limit : Duration) (url : Url) : HttpReply → Except Error Response
  | .response status headers body => do
    let headers := Response.headersOf headers
    let body ← Response.bodyOf headers (Text.ofBytesLossy body)
    pure ⟨status, headers, body⟩
  | .unreachable => .error (.http (.unreachable url.text))
  | .silent => .error (.timeout name limit.millis)
  | .stalled _ => .error (.timeout ("reading body of " ++ name) limit.millis)
  | .broken _ => .error (.http .brokenBody)

def send (s : RequestStep) (settings : StepSettings) : Trial Response := do
  let request ← s.prepare settings.baseUrl
  let limit := s.limit settings
  let reply ← (Run.send request limit : Run HttpReply)
  response (request.method ++ " " ++ s.address settings.baseUrl) limit request.url reply

end RequestStep

namespace Expectation

def statusFailures (r : Response) : Option Value → List String
  | some expected => Check.failures [Check.status r.status expected]
  | none => []

def headerFailures (r : Response) : Option Fields → Except Error (List String)
  | some expected => (Check.headers r.headers expected).map Check.failures
  | none => .ok []

def bodyFailures (r : Response) (expected : Value) : Except Error (List String) :=
  (Check.body r.body expected "body").map Check.failures

def optionalFailures {α : Type} (f : α → Except Error (List String)) :
    Option α → Except Error (List String)
  | some a => f a
  | none => .ok []

def expressionFailures (r : Response) : Option ExpressionList → List String
  | some es => es.toList.filterMap (Expression.failure r)
  | none => []

def allFailures (r : Response) : List Value → Except Error (List String)
  | [] => .ok []
  | expected :: rest => do
    let here ← bodyFailures r expected
    let more ← allFailures r rest
    pure (here ++ more)

/-- Why no alternative matches; nothing when one does. Later ones are then not looked at. -/
def reasonsAgainst (r : Response) : List Value → Except Error (Option (List String))
  | [] => .ok (some [])
  | expected :: rest => do
    let checks ← Check.body r.body expected "body"
    if Check.allPassed checks then pure none
    else do
      let more ← reasonsAgainst r rest
      pure (more.map (String.intercalate ", " (Check.failures checks) :: ·))

def anyFailures (r : Response) (alternatives : List Value) : Except Error (List String) := do
  match ← reasonsAgainst r alternatives with
  | none => pure []
  | some reasons =>
    pure ["None of the 'any' alternatives matched: [" ++ String.intercalate " | " reasons ++ "]"]

/-- Why a response is not what was wanted: by status, headers, body, expressions, and the trees
that must all or of which one must match. -/
def failures (e : Expectation) (r : Response) : Except Error (List String) := do
  let byHeaders ← headerFailures r e.headers
  let byBody ← optionalFailures (bodyFailures r) e.body
  let byAll ← optionalFailures (allFailures r) e.all
  let byAny ← optionalFailures (anyFailures r) e.any
  pure (statusFailures r e.status ++ (byHeaders ++ (byBody ++
    (expressionFailures r e.expressions ++ (byAll ++ byAny)))))

end Expectation

/-- The value a saved path names in a body. The path may begin with the word `body`. -/
def savedValue (body : Value) (path : String) : Option Value :=
  let inner :=
    if path = "body" then ""
    else
      match Text.dropPrefix "body.".toList path.toList with
      | some rest => String.ofList rest
      | none => path
  body.walk? inner

def Context.save (ctx : Context) (body : Value) (bindings : Entries String) : Context :=
  bindings.foldl (fun ctx b =>
    match savedValue body b.2 with
    | some v => ctx.store b.1 v
    | none => ctx) ctx

/-- The failures of a request, and the context with what is saved from its response. -/
def RequestStep.run (s : RequestStep) (expect : Option Expectation) (save : Entries String)
    (settings : StepSettings) (ctx : Context) : Trial (List String × Context) := do
  let r ← s.send settings
  let failed ← Expectation.optionalFailures (fun e => Expectation.failures e r) expect
  pure (failed, ctx.save r.body save)

end Assay

import Assay.Error
import Assay.Libraries
import Assay.Suite.Action

namespace Assay

structure HttpRequest where
  method : String
  url : Url
  headers : List (String × String)
  body : Option String

inductive HttpReply
  | response (status : Nat) (headers : List (String × String)) (body : List UInt8)
  | unreachable
  /-- No response within the limit. -/
  | silent
  /-- A response whose body did not end within the limit. -/
  | stalled (status : Nat)
  /-- A response whose body broke off. -/
  | broken (status : Nat)

def isTokenChar (c : Char) : Bool := c.isAlphanum || "!#$%&'*+-.^_`|~".toList.contains c

def isToken (s : String) : Bool := s != "" && s.toList.all isTokenChar

/-- A header value may hold anything but control characters; a tab is allowed. -/
def isHeaderText (s : String) : Bool :=
  s.toList.all fun c => c == '\t' || (32 ≤ c.toNat && c.toNat != 127)

def isHeader (h : String × String) : Bool := isToken h.1 && isHeaderText h.2

namespace RequestStep

variable [Libraries]

def address (s : RequestStep) (base : String) : String :=
  match s.url with
  | some url => url
  | none =>
    let path := s.path.getD "/"
    if Text.startsWith path "http://" || Text.startsWith path "https://" then path
    else
      withoutSlashes base ++ "/" ++ String.ofList (path.toList.dropWhile (· == '/'))

def verb (s : RequestStep) : String := Text.upper s.method

def contentType : String := "content-type"

/-- The headers of a step. A body that is not sent with `GET` is JSON unless the step says
otherwise. -/
def sentHeaders (s : RequestStep) : List (String × String) :=
  let own := s.headers.map fun h => (h.1, h.2.text)
  let named := own.any fun h => Text.sameIgnoringCase h.1 contentType
  if s.body.isSome && s.verb != "GET" && !named then own ++ [(contentType, "application/json")]
  else own

def prepare (s : RequestStep) (base : String) : Except Error HttpRequest :=
  if !isToken s.verb then .error (.unknownMethod s.method)
  else
    match Libraries.readAddress (s.address base), s.sentHeaders.all isHeader with
    | .malformed, _ | _, false => .error (.http .malformedRequest)
    | .foreign url, true => .error (.http (.foreignScheme url))
    | .web url, true => .ok ⟨s.verb, url, s.sentHeaders, s.body.map Value.text⟩

end RequestStep

end Assay

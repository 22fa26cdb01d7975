import Assay.Check.Response
import Assay.Expression.Leaf

namespace Assay

/-- A response as checks see it. A body that is not JSON is a text. -/
structure Response where
  status : Nat
  headers : List (String × String)
  body : Value

namespace Expression

/-- The value under a path into the body. A last segment `length` asks for the length. -/
def bodyPath (v : Value) : List String → Option Value
  | [] => some v
  | [s] => if s = "length" then v.length?.map .nat else v.child? s
  | s :: ss => (v.child? s).bind (bodyPath · ss)

def pathValue (r : Response) (path : List Char) : Option Value :=
  let path := Text.trimChars path
  match Value.segments (String.ofList path) with
  | "status" :: rest => if rest.isEmpty then some (.nat r.status) else none
  | "headers" :: _ =>
    (Text.dropPrefix "headers.".toList path).bind fun name =>
      (Check.header? r.headers (String.ofList name)).map .string
  | "body" :: rest => bodyPath r.body rest
  | _ => none

def quoted? (cs : List Char) : Option (List Char) :=
  match cs with
  | q :: r =>
    if (q = '"' ∨ q = '\'') ∧ r.getLast? = some q then some r.dropLast else none
  | [] => none

def numeral? (cs : List Char) : Option Value :=
  match readInt64? cs with
  | some n => some (.int n)
  | none => ((Double.read? cs).filter Double.isFinite).map fun x => .number (.float x)

def operandValue (r : Response) (token : List Char) : Option Value :=
  let token := Text.trimChars token
  match String.ofList token with
  | "true" => some (.bool true)
  | "false" => some (.bool false)
  | "null" => some .null
  | _ =>
    match quoted? token with
    | some s => some (.string (String.ofList s))
    | none => (numeral? token).orElse fun _ => pathValue r token

def readDouble? (s : String) : Option Double := Double.read? (Text.trimChars s.toList)

def numberOf : Value → Option Double
  | .number n => some n.toDouble
  | .string s => readDouble? s
  | _ => none

/-- Equality of operands. A number equals a text that reads as that number, and a missing operand
equals only another missing one. -/
def looselyEqual : Option Value → Option Value → Bool
  | none, none => true
  | some (.number a), some (.string b) => (readDouble? b).any a.toDouble.equals
  | some (.string a), some (.number b) => (readDouble? a).any b.toDouble.equals
  | some a, some b => a.equals b
  | _, _ => false

/-- The order of operands: of texts by their numbers when both are numerals and else by their
characters, of others by their numbers. -/
def order : Option Value → Option Value → Option Ordering
  | some (.string a), some (.string b) =>
    match readDouble? a, readDouble? b with
    | some x, some y => x.compare? y
    | _, _ => some (compare a b)
  | some a, some b => do
    let x ← numberOf a
    let y ← numberOf b
    x.compare? y
  | _, _ => none

def holds (left right : Option Value) : Relation → Bool
  | .equal => looselyEqual left right
  | .unequal => !looselyEqual left right
  | .greater => order left right == some .gt
  | .atLeast => order left right == some .gt || order left right == some .eq
  | .less => order left right == some .lt
  | .atMost => order left right == some .lt || order left right == some .eq

end Expression

end Assay

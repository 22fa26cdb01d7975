import Assay.Value
import Assay.Number.Reading

namespace Assay

/-- The key of an entry: a text, or a collection where a text was wanted. -/
inductive Key
  | text (s : String)
  | sequence
  | mapping
deriving DecidableEq

/-- A document before types are put on it. A plain scalar has no kind of its own: the type that
reads it decides. Mappings keep repeated keys. -/
inductive Document
  | null
  | bool (b : Bool)
  | number (n : Number)
  | string (s : String)
  | plain (s : String)
  | sequence (items : List Document)
  | mapping (entries : List (Key × Document))

/-- Where a document came from; it decides what may stand for what, and some wordings. -/
inductive Origin
  | jsonText
  | jsonValue
  | yaml
  | toml
deriving DecidableEq

mutual

def Document.ofValue : Value → Document
  | .null => .null
  | .bool b => .bool b
  | .number n => .number n
  | .string s => .string s
  | .array items => .sequence (Document.ofValues items)
  | .object fields => .mapping (Document.ofFields fields)
termination_by structural v => v

def Document.ofValues : List Value → List Document
  | [] => []
  | v :: vs => Document.ofValue v :: Document.ofValues vs
termination_by structural v => v

def Document.ofFields : List (String × Value) → List (Key × Document)
  | [] => []
  | (k, v) :: fs => (.text k, Document.ofValue v) :: Document.ofFields fs
termination_by structural v => v

end

/-- Whether a mapping itself repeats a key. -/
def Document.repeatsKey : List (Key × Document) → Bool
  | [] => false
  | (k, _) :: es => es.any (fun e => e.1 == k) || Document.repeatsKey es

mutual

/-- Whether a mapping at any depth repeats a key. -/
def Document.hasRepeatedKey : Document → Bool
  | .sequence items => Document.anyRepeatedKey items
  | .mapping entries => Document.repeatsKey entries || Document.entriesRepeatKey entries
  | _ => false
termination_by structural d => d

def Document.anyRepeatedKey : List Document → Bool
  | [] => false
  | d :: ds => d.hasRepeatedKey || Document.anyRepeatedKey ds
termination_by structural d => d

def Document.entriesRepeatKey : List (Key × Document) → Bool
  | [] => false
  | (_, d) :: es => d.hasRepeatedKey || Document.entriesRepeatKey es
termination_by structural d => d

end

/-- What a plain scalar stands for when nothing in particular is wanted. -/
inductive Scalar
  | null
  | bool (b : Bool)
  | int (n : Int)
  | float (x : Double)
  | text (s : String)

namespace Scalar

def isNull (s : String) : Bool := s == "" || s == "~" || s == "null" || s == "Null" || s == "NULL"

def bool? (s : String) : Option Bool :=
  if s == "true" || s == "True" || s == "TRUE" then some true
  else if s == "false" || s == "False" || s == "FALSE" then some false
  else none

/-- Several digits of which the first is zero: a text, not a number. -/
def isPadded (cs : List Char) : Bool :=
  let body := match cs with
    | '-' :: r | '+' :: r => r
    | _ => cs
  match body with
  | '0' :: r => !r.isEmpty && r.all Char.isDigit
  | _ => false

def based? : List Char → Option Nat
  | '0' :: 'x' :: r => readBase? 16 r
  | '0' :: 'o' :: r => readBase? 8 r
  | '0' :: 'b' :: r => readBase? 2 r
  | _ => none

/-- An unsigned integer, decimal or with a mark for its base; a plus sign may precede it. -/
def nat? (cs : List Char) : Option Nat :=
  let body := match cs with
    | '+' :: r => r
    | _ => cs
  match based? body with
  | some n => some n
  | none => if isPadded cs then none else readNat? body

def negative? (cs : List Char) : Option Int :=
  match cs with
  | '-' :: r =>
    match based? r with
    | some n => some (-(n : Int))
    | none => if isPadded cs then none else (readNat? r).map fun n => -(n : Int)
  | _ => none

def int? (cs : List Char) : Option Int :=
  match nat? cs with
  | some n => some n
  | none => negative? cs

/-- A finite decimal numeral, or infinity and not-a-number after a point. -/
def float? (s : String) : Option Double :=
  let cs := s.toList
  let body := match cs with
    | '+' :: r => r
    | _ => cs
  let signTwice := match cs with
    | '+' :: '+' :: _ | '+' :: '-' :: _ => true
    | _ => false
  let name := String.ofList body
  if signTwice then none
  else if name == ".inf" || name == ".Inf" || name == ".INF" then some (.infinite false)
  else if s == "-.inf" || s == "-.Inf" || s == "-.INF" then some (.infinite true)
  else if s == ".nan" || s == ".NaN" || s == ".NAN" then some .nan
  else (Double.read? body).filter Double.isFinite

/-- Integers have at most 128 bits, sign included. -/
def ofPlain (s : String) : Scalar :=
  let cs := s.toList
  if isNull s then .null
  else
    match bool? s with
    | some b => .bool b
    | none =>
      match (int? cs).filter fun n => decide (-(Nat.pow 2 127 : Int) ≤ n ∧ n < Nat.pow 2 128) with
      | some n => .int n
      | none =>
        match if isPadded cs then none else float? s with
        | some x => .float x
        | none => .text s

end Scalar

end Assay

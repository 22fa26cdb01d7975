import Assay.Suite.Action

namespace Assay

structure OutputExpectation where
  contains : Option String
  lacks : Option String
  pattern : Option String
  json : Option Value
  length : Option Comparison

inductive ExpressionList
  | one (expression : String)
  | many (expressions : List String)

structure Expectation where
  status : Option Value
  headers : Option Fields
  body : Option Value
  output : Option OutputExpectation
  exitCode : Option Int
  expressions : Option ExpressionList
  all : Option (List Value)
  any : Option (List Value)

namespace OutputExpectation

def record : Record OutputExpectation :=
  OutputExpectation.mk <$> .option "contains" .text <*> .option "notContains" .text <*>
    .option "matches" .text <*> .option "json" .value <*> .option "length" Comparison.decode

def decode : Decoder OutputExpectation := record.decode "OutputExpectation" false

def toValue (e : OutputExpectation) : Value :=
  .object
    [("contains", .optionalText e.contains), ("notContains", .optionalText e.lacks),
      ("matches", .optionalText e.pattern), ("json", .ofOption id e.json),
      ("length", .ofOption Comparison.toValue e.length)]

end OutputExpectation

namespace ExpressionList

def toList : ExpressionList → List String
  | one e => [e]
  | many es => es

/-- A text among texts and numbers: a plain scalar is a text only if it means nothing else. -/
def textOnly? : Document → Option String
  | .string s => some s
  | .plain s =>
    match Scalar.ofPlain s with
    | .text s => some s
    | _ => none
  | _ => none

def decode : Decoder ExpressionList := fun _ d =>
  match textOnly? d with
  | some s => .ok (one s)
  | none =>
    match d with
    | .sequence items =>
      match items.mapM textOnly? with
      | some es => .ok (many es)
      | none => .error (.noVariant "ExprList")
    | _ => .error (.noVariant "ExprList")

def toValue : ExpressionList → Value
  | one e => .string e
  | many es => .strings es

end ExpressionList

namespace Expectation

def record : Record Expectation :=
  Expectation.mk <$> .option "status" .value <*> .option "headers" .fields <*>
    .option "body" .value <*> .option "output" OutputExpectation.decode <*>
    .option "exitCode" .int64 <*> .option "expr" ExpressionList.decode <*>
    .option "all" (.list .value) <*> .option "any" (.list .value)

def decode : Decoder Expectation := record.decode "Expectation" false

def toValue (e : Expectation) : Value :=
  .object
    [("status", .ofOption id e.status), ("headers", .ofOption .object e.headers),
      ("body", .ofOption id e.body), ("output", .ofOption OutputExpectation.toValue e.output),
      ("exitCode", .ofOption .int e.exitCode),
      ("expr", .ofOption ExpressionList.toValue e.expressions),
      ("all", .ofOption .array e.all), ("any", .ofOption .array e.any)]

end Expectation

end Assay

import Assay.Document.Basic
import Assay.Number.Shortest
import Assay.Text.Escaped

namespace Assay

inductive Found
  | null
  | bool (b : Bool)
  | int (n : Int)
  | float (x : Double)
  | string (s : String)
  | sequence
  | mapping

def Found.ofScalar : Scalar → Found
  | .null => .null
  | .bool b => .bool b
  | .int n => .int n
  | .float x => .float x
  | .text s => .string s

def Document.found : Document → Found
  | .null => .null
  | .bool b => .bool b
  | .number (.int n) => .int n
  | .number (.float x) => .float x
  | .string s => .string s
  | .plain s => .ofScalar (.ofPlain s)
  | .sequence _ => .sequence
  | .mapping _ => .mapping

/-- Plain writing, with a point also in whole numbers. -/
def DecimalLayout.pointed : DecimalLayout := ⟨none, none, true, "inf", "NaN"⟩

def Found.describe (o : Origin) : Found → String
  | .null => if o = .yaml then "unit value" else "null"
  | .bool b => "boolean `" ++ toString b ++ "`"
  | .int n =>
    if n < -(Nat.pow 2 63 : Int) then "integer `" ++ toString n ++ "` as i128"
    else if n < Nat.pow 2 64 then "integer `" ++ toString n ++ "`"
    else "integer `" ++ toString n ++ "` as u128"
  | .float x =>
    let layout := if o = .yaml then DecimalLayout.pointed else DecimalLayout.json
    "floating point `" ++ layout.write x ++ "`"
  | .string s => "string " ++ Text.escaped s
  | .sequence => "sequence"
  | .mapping => "map"

/-- Why a document does not have the wanted type. The last two are noticed in a part that was first
turned into a JSON value. -/
inductive Mismatch
  | type (found : Found) (expected : String)
  | value (found : Found) (expected : String)
  | length (count : Nat) (expected : String)
  | unknownVariant (name : String) (known : List String)
  | unknownField (name : String) (known : List String)
  | missingField (name : String)
  | duplicateField (name : String)
  | noVariant (union : String)
  | expectedValue
  | trailing
  | duration (text : String)
  | negativeDuration (x : Double)
  | comparison (text : String)
  | within (key : String) (m : Mismatch)
  | plainly (m : Mismatch)

def choices : List String → String
  | [] => "there are none"
  | [a] => "expected `" ++ a ++ "`"
  | [a, b] => "expected `" ++ a ++ "` or `" ++ b ++ "`"
  | names => "expected one of " ++ String.intercalate ", " (names.map fun n => "`" ++ n ++ "`")

def invalidDuration (text : String) : String :=
  "Invalid duration '" ++ text ++ "'. Use milliseconds or a value like '500ms', '5s', '1m'"

def invalidComparison (text : String) : String :=
  "Configuration error: Invalid comparison '" ++ text ++
    "'. Expected e.g. '>0', '<=10' or '3'"

def Mismatch.message (o : Origin) : Mismatch → String
  | .type found expected => "invalid type: " ++ found.describe o ++ ", expected " ++ expected
  | .value found expected => "invalid value: " ++ found.describe o ++ ", expected " ++ expected
  | .length count expected => "invalid length " ++ toString count ++ ", expected " ++ expected
  | .unknownVariant name known => "unknown variant `" ++ name ++ "`, " ++ choices known
  | .unknownField name known => "unknown field `" ++ name ++ "`, " ++ choices known
  | .missingField name => "missing field `" ++ name ++ "`"
  | .duplicateField name => "duplicate field `" ++ name ++ "`"
  | .noVariant union => "data did not match any variant of untagged enum " ++ union
  | .expectedValue => "expected value"
  | .trailing => "trailing characters"
  | .duration text => invalidDuration text
  | .negativeDuration x => "negative duration " ++ DecimalLayout.plain.write x
  | .comparison text => invalidComparison text
  | .within key m => key ++ ": " ++ m.message .jsonValue
  | .plainly m => m.message .jsonValue

end Assay

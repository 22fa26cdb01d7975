import Assay.Check.Basic
import Assay.Check.Equality
import Assay.Walk
import Assay.Unit.Comparison
import Assay.Text.Escaped

namespace Assay

/-- The names of the conditions. Any other name in an expectation is a field. -/
def operatorNames : List String :=
  ["type", "exists", "in", "gt", "gte", "lt", "lte", "contains", "notContains", "matches",
    "startsWith", "endsWith", "length", "every", "some", "not"]

def isOperator (name : String) : Bool := operatorNames.contains name

/-- Whether the expectation's fields name an operator, and so are conditions on one value. -/
def hasOperator (fields : List (String × Value)) : Bool := fields.any fun f => isOperator f.1

namespace Check

def checkKind (actual : Option Value) (expected : Value) (path : String) : Check :=
  let kind := Value.kindName actual
  let passed := expected.asString? == some kind
  ⟨path, "type", expected, actual, passed,
    if passed then path ++ ": type " ++ kind
    else path ++ ": expected type " ++ expected.preview ++ ", got " ++ kind⟩

/-- A null counts as missing, and anything but `false` asks for a value. -/
def checkPresent (actual : Option Value) (expected : Value) (path : String) : Check :=
  let here := match actual with
    | none | some .null => false
    | some _ => true
  let wanted := match expected with
    | .bool b => b
    | _ => true
  let passed := here == wanted
  ⟨path, "exists", expected, actual, passed,
    if passed then path ++ ": exists " ++ toString wanted
    else if wanted then path ++ ": expected to exist, but it is missing"
    else path ++ ": expected not to exist, got " ++ previewOf actual⟩

def isOneOf (actual : Option Value) (expected : Value) : Bool :=
  match expected, actual with
  | .array options, some a => options.any a.equals
  | _, _ => false

/-- What is no number compares with nothing, and neither does a name that is no comparison. -/
def compareNumbers (operator : String) (actual : Option Value) (limit : Value) : Bool :=
  match actual.bind Value.toDouble?, limit.toDouble? with
  | some x, some y =>
    match operator with
    | "gt" => Relation.greater.holds x y
    | "gte" => Relation.atLeast.holds x y
    | "lt" => Relation.less.holds x y
    | "lte" => Relation.atMost.holds x y
    | _ => false
  | _, _ => false

/-- Whether a text or a list contains a value; undefined for anything else. -/
def contains? (actual : Option Value) (expected : Value) : Option Bool :=
  match actual with
  | some (.string s) => some (Text.contains s expected.text)
  | some (.array items) => some (items.any fun item => item.equals expected)
  | _ => none

def textHolds (test : String → Bool) (actual : Option Value) : Bool :=
  match actual with
  | some (.string s) => test s
  | _ => false

def checkLengthBound (length : Value) (path : String) (entry : String × Value) : Check :=
  match entry.1 with
  | "gt" | "gte" | "lt" | "lte" =>
    plain path entry.1 entry.2 (some length) (compareNumbers entry.1 (some length) entry.2)
  | other =>
    ⟨path, other, entry.2, some length, false,
      path ++ ": unsupported length comparison '" ++ other ++ "' (use gt, gte, lt, lte)"⟩

def checkLength (actual : Option Value) (expected : Value) (path : String) : List Check :=
  match actual.bind Value.length? with
  | none =>
    [⟨path, "length", expected, actual, false,
      path ++ ": expected something with a length, got " ++ previewOf actual⟩]
  | some n =>
    let place := path ++ ".length"
    match expected with
    | .object bounds => bounds.map (checkLengthBound (.nat n) place)
    | _ => [plain place "length" expected (some (.nat n)) ((Value.nat n).equals expected)]

def notAList (actual : Option Value) (operator : String) (expected : Value) (path : String) :
    Check :=
  ⟨path, operator, expected, actual, false,
    path ++ ": '" ++ operator ++ "' needs an array, got " ++ previewOf actual⟩

def notAnObject (actual : Option Value) (expected : Value) (path : String) : Check :=
  ⟨path, "object", expected, actual, false,
    path ++ ": expected an object, got " ++ previewOf actual⟩

def everyItem (items : List Value) (expected : Value) (path : String) (failed : List String) :
    Check :=
  ⟨path, "every", expected, some (.array items), failed.isEmpty,
    if failed.isEmpty then
      path ++ ": every element matched (" ++ toString items.length ++ " elements)"
    else path ++ ": not every element matched: " ++ String.intercalate "; " failed⟩

def someItem (items : List Value) (expected : Value) (path : String) (found : Option Nat) : Check :=
  ⟨path, "some", expected, some (.array items), found.isSome,
    match found with
    | some i => path ++ ": element " ++ toString i ++ " matched"
    | none =>
      if items.isEmpty then
        path ++ ": expected some element to match, but the array is empty"
      else
        path ++ ": none of " ++ toString items.length ++ " elements matched " ++ expected.preview⟩

end Check

end Assay

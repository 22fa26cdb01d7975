import Assay.Check.Operator
import Assay.Error
import Assay.Libraries

namespace Assay.Check

variable [Libraries]

/-- The texts in which a pattern matches. -/
def compile (pattern : String) : Except Error (String → Bool) :=
  (Libraries.readPattern pattern).mapError (.invalidPattern pattern)

def joinPath (path key : String) : String := if path = "" then key else path ++ "." ++ key

def itemPath (path : String) (i : Nat) : String := path ++ "[" ++ toString i ++ "]"

def failuresOfItems (check : Value → String → Except Error (List Check)) (path : String) :
    Nat → List Value → Except Error (List String)
  | _, [] => .ok []
  | i, v :: vs => do
    let cs ← check v (itemPath path i)
    let rest ← failuresOfItems check path (i + 1) vs
    pure (failures cs ++ rest)

/-- The place of the first item of which all checks pass. Later items are not looked at. -/
def firstPassing (check : Value → String → Except Error (List Check)) (path : String) :
    Nat → List Value → Except Error (Option Nat)
  | _, [] => .ok none
  | i, v :: vs => do
    let cs ← check v (itemPath path i)
    if allPassed cs then pure (some i) else firstPassing check path (i + 1) vs

/-- The checks of one operator. An operand that is an expectation in its turn is checked by
`inner`. -/
def applyOperator (inner : Option Value → String → Except Error (List Check)) (operator : String)
    (actual : Option Value) (expected : Value) (path : String) : Except Error (List Check) :=
  let single (passed : Bool) : Except Error (List Check) :=
    .ok [plain path operator expected actual passed]
  match operator with
  | "type" => .ok [checkKind actual expected path]
  | "exists" => .ok [checkPresent actual expected path]
  | "in" => single (isOneOf actual expected)
  | "gt" | "gte" | "lt" | "lte" => single (compareNumbers operator actual expected)
  | "contains" => single ((contains? actual expected).getD false)
  | "notContains" => single (((contains? actual expected).map (!·)).getD false)
  | "matches" => do
    let occurs ← compile expected.text
    single (textHolds occurs actual)
  | "startsWith" => single (textHolds (fun s => Text.startsWith s expected.text) actual)
  | "endsWith" => single (textHolds (fun s => Text.endsWith s expected.text) actual)
  | "length" => .ok (checkLength actual expected path)
  | "every" =>
    match actual with
    | some (.array items) => do
      let failed ← failuresOfItems (fun v p => inner (some v) p) path 0 items
      .ok [everyItem items expected path failed]
    | _ => .ok [notAList actual operator expected path]
  | "some" =>
    match actual with
    | some (.array items) => do
      let found ← firstPassing (fun v p => inner (some v) p) path 0 items
      .ok [someItem items expected path found]
    | _ => .ok [notAList actual operator expected path]
  | "not" => (inner actual path).map fun cs => cs.map negate
  | _ => .error (.internal ("unhandled operator '" ++ operator ++ "'"))

mutual

/-- The checks of a value against an expectation. An object that names operators puts conditions
on the value itself and on its fields; another object describes fields; anything else must be
equal. -/
def evaluate (expected : Value) (actual : Option Value) (path : String) :
    Except Error (List Check) :=
  match expected with
  | .object (f :: fs) =>
    if hasOperator (f :: fs) then evaluateFields (f :: fs) true actual path
    else
      match actual with
      | some (.object _) | some (.array _) => evaluateFields (f :: fs) false actual path
      | _ => .ok [notAnObject actual (.object (f :: fs)) path]
  | e => .ok [plain path "equals" e actual (actual.any fun a => a.equals e)]
termination_by structural expected

def evaluateFields (fields : List (String × Value)) (operators : Bool) (actual : Option Value)
    (path : String) : Except Error (List Check) :=
  match fields with
  | [] => .ok []
  | (key, condition) :: fs => do
    let cs ←
      if operators && isOperator key then
        applyOperator (fun a p => evaluate condition a p) key actual condition path
      else evaluate condition (actual.bind fun a => a.child? key) (joinPath path key)
    let rest ← evaluateFields fs operators actual path
    pure (cs ++ rest)
termination_by structural fields

end

def body (actual expected : Value) (path : String) : Except Error (List Check) :=
  evaluate expected (some actual) path

end Assay.Check

import Assay.Json.Print
import Assay.Text.Split

namespace Assay

/-- The outcome of one check: what was wanted where, what was found there, and whether it passed. -/
structure Check where
  path : String
  operator : String
  expected : Value
  actual : Option Value
  passed : Bool
  message : String

def previewLimit : Nat := 200

def Value.preview (v : Value) : String := Text.clip previewLimit v.compact

def previewOf : Option Value → String
  | none => "undefined"
  | some v => v.preview

namespace Check

def plain (path operator : String) (expected : Value) (actual : Option Value) (passed : Bool) :
    Check :=
  ⟨path, operator, expected, actual, passed,
    if passed then path ++ ": " ++ operator ++ " " ++ expected.preview
    else path ++ ": expected " ++ operator ++ " " ++ expected.preview ++ ", got " ++
      previewOf actual⟩

def negate (c : Check) : Check :=
  let operator := "not(" ++ c.operator ++ ")"
  { c with
    operator := operator
    passed := !c.passed
    message :=
      if c.passed then
        c.path ++ ": expected " ++ operator ++ " " ++ c.expected.preview ++ ", but it held for " ++
          previewOf c.actual
      else c.path ++ ": " ++ operator ++ " " ++ c.expected.preview }

def failures (cs : List Check) : List String := (cs.filter (!·.passed)).map (·.message)

def allPassed (cs : List Check) : Bool := cs.all (·.passed)

end Check

end Assay

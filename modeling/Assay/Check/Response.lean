import Assay.Check.Evaluate
import Assay.Text.Case

namespace Assay.Check

variable [Libraries]

/-- A status code against a number or a list of accepted numbers. -/
def status (actual : Nat) (expected : Value) : Check :=
  let code := Value.nat actual
  match expected with
  | .array accepted =>
    let passed := accepted.any code.equals
    ⟨"status", "in", expected, some code, passed,
      if passed then "status: " ++ toString actual ++ " in " ++ expected.compact
      else "Expected status in " ++ expected.compact ++ ", got " ++ toString actual⟩
  | _ =>
    let passed := code.equals expected
    ⟨"status", "equals", expected, some code, passed,
      if passed then "status: " ++ toString actual
      else "Expected status " ++ expected.preview ++ ", got " ++ toString actual⟩

/-- The header of a name, in whatever case it is written. -/
def header? (headers : List (String × String)) (name : String) : Option String :=
  (headers.find? fun h => Text.sameIgnoringCase h.1 name).map Prod.snd

def headers (actual : List (String × String)) : Fields → Except Error (List Check)
  | [] => .ok []
  | (name, condition) :: rest => do
    let cs ← evaluate condition ((header? actual name).map .string) ("headers." ++ Text.lower name)
    let more ← headers actual rest
    pure (cs ++ more)

end Assay.Check

import Assay.Expression.Operand
import Assay.Text.Pieces

namespace Assay.Expression

def shown : Option Value → String
  | none => "undefined"
  | some v => v.compact

def leafFailure (r : Response) (cs : List Char) : Option String :=
  let text := String.ofList (Text.trimChars cs)
  match leaf? cs with
  | none => some ("Invalid expression: '" ++ text ++ "'")
  | some l =>
    let left := pathValue r l.left
    let right := operandValue r l.right
    if holds left right l.relation then none
    else
      some ("Expression failed: " ++ text ++ " (left: " ++ shown left ++ ", right: " ++
        shown right ++ ")")

def joined (reasons : List String) : String := String.intercalate "; " reasons

def failureOfAll : List String → Option String
  | [] => none
  | reasons => some (joined reasons)

/-- The reasons of all alternatives. There are none as soon as one alternative holds. -/
def reasonsAgainst : List (Option String) → Option (List String)
  | [] => some []
  | none :: _ => none
  | some reason :: rest => (reasonsAgainst rest).map (reason :: ·)

def failureOfAny (failures : List (Option String)) : Option String :=
  (reasonsAgainst failures).map fun reasons => "None of the alternatives held: " ++ joined reasons

/-- Why a text does not hold, when it is known why comparisons do not. It is a conjunction if it can
be cut into conjuncts, else alternatives if it can be cut into these, and else a comparison. -/
def failureBy (leaf : List Char → Option String) (cs : List Char) : Option String :=
  if hand : Text.occursIn ['&', '&'] cs then
    failureOfAll ((Text.splitOnPair '&' '&' cs).attach.filterMap fun ⟨c, hc⟩ =>
      have := Text.length_lt_of_mem_splitOnPair hand hc
      failureBy leaf c)
  else if hor : Text.occursIn ['|', '|'] cs then
    failureOfAny ((Text.splitOnPair '|' '|' cs).attach.map fun ⟨c, hc⟩ =>
      have := Text.length_lt_of_mem_splitOnPair hor hc
      failureBy leaf c)
  else leaf cs
termination_by cs.length

def failure (r : Response) (expression : String) : Option String :=
  failureBy (leafFailure r) expression.toList

end Assay.Expression

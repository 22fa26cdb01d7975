import Assay.Unit.Comparison

namespace Assay.Expression

structure Leaf where
  left : List Char
  relation : Relation
  right : List Char
deriving DecidableEq

/-- The relations a text can begin with, the longer spelling first, each with what follows it. -/
def relationsAt : List Char → List (Relation × List Char)
  | '=' :: '=' :: r => [(.equal, r)]
  | '!' :: '=' :: r => [(.unequal, r)]
  | '>' :: '=' :: r => [(.atLeast, r), (.greater, '=' :: r)]
  | '<' :: '=' :: r => [(.atMost, r), (.less, '=' :: r)]
  | '>' :: r => [(.greater, r)]
  | '<' :: r => [(.less, r)]
  | _ => []

/-- The last operand: all that is left, on one line. It may be blank but not empty. -/
def lastOperand? (cs : List Char) : Option (List Char) :=
  let operand := Text.trimChars cs
  if operand.isEmpty then (if cs.any (· != '\n') then some [] else none)
  else if operand.contains '\n' then none
  else some operand

def leafAt (left cs : List Char) : Option Leaf :=
  (relationsAt (Text.trimLeftChars cs)).findSome? fun (relation, rest) =>
    (lastOperand? rest).map fun right => ⟨Text.trimChars left, relation, right⟩

/-- Extend the first operand within its line until a relation with a last operand follows. -/
def extend (left : List Char) : List Char → Option Leaf
  | [] => none
  | c :: cs =>
    if c = '\n' then none
    else (leafAt (left ++ [c]) cs).orElse fun _ => extend (left ++ [c]) cs

/-- The comparison a text consists of. Blanks before it count as an operand only when there is no
other. -/
def leaf? : List Char → Option Leaf
  | [] => none
  | c :: cs =>
    if Text.isBlank c then (leaf? cs).orElse fun _ => extend [] (c :: cs) else extend [] (c :: cs)

end Assay.Expression

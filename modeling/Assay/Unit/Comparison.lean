import Assay.Document.Loose
import Assay.Text.Blank

namespace Assay

inductive Relation
  | equal
  | unequal
  | greater
  | atLeast
  | less
  | atMost
deriving DecidableEq

namespace Relation

def symbol : Relation → String
  | equal => "=="
  | unequal => "!="
  | greater => ">"
  | atLeast => ">="
  | less => "<"
  | atMost => "<="

/-- Not a number is unequal to everything and compares with nothing. -/
def holds (x y : Double) : Relation → Bool
  | equal => x.equals y
  | unequal => !x.equals y
  | greater => y.less x
  | atLeast => y.atMost x
  | less => x.less y
  | atMost => x.atMost y

end Relation

structure Comparison where
  relation : Relation
  bound : Double
deriving DecidableEq

namespace Comparison

/-- The relation a text begins with and what follows it; equality when there is none. -/
def splitRelation : List Char → Relation × List Char
  | '>' :: '=' :: r => (.atLeast, r)
  | '<' :: '=' :: r => (.atMost, r)
  | '=' :: '=' :: r => (.equal, r)
  | '!' :: '=' :: r => (.unequal, r)
  | '>' :: r => (.greater, r)
  | '<' :: r => (.less, r)
  | '=' :: r => (.equal, r)
  | r => (.equal, r)

def parse? (text : String) : Option Comparison :=
  let (relation, rest) := splitRelation (Text.trimChars text.toList)
  (Double.read? (Text.trimChars rest)).map fun x => ⟨relation, x⟩

def holds (c : Comparison) (x : Double) : Bool := c.relation.holds x c.bound

def text (c : Comparison) : String := c.relation.symbol ++ DecimalLayout.plain.write c.bound

def toValue (c : Comparison) : Value := .string c.text

def ofScalar : LooseScalar → Except Mismatch Comparison
  | .int n => .ok ⟨.equal, .ofNat n⟩
  | .float x => .ok ⟨.equal, x⟩
  | .text s =>
    match parse? s with
    | some c => .ok c
    | none => .error (.comparison s)

def decode : Decoder Comparison := fun o d => LooseScalar.decode o d >>= ofScalar

end Comparison

end Assay

import Assay.Document.Loose
import Assay.Text.Blank

namespace Assay

structure Duration where
  millis : Nat
deriving DecidableEq

namespace Duration

/-- Longer durations are held at this many milliseconds. -/
def limit : Nat := Nat.pow 2 64 - 1

def seconds (n : Nat) : Duration := ⟨n * 1000⟩

/-- The number and the milliseconds of its unit. Without a unit the number counts milliseconds. -/
def splitUnit (cs : List Char) : List Char × Nat :=
  match Text.dropSuffix ['m', 's'] cs with
  | some number => (number, 1)
  | none =>
    match cs.reverse with
    | 's' :: r => (r.reverse, 1000)
    | 'm' :: r => (r.reverse, 60000)
    | 'h' :: r => (r.reverse, 3600000)
    | _ => (cs, 1)

def ofMillis (x : Double) : Duration := ⟨x.toNatClamped limit⟩

def parse? (text : String) : Option Duration := do
  let (number, scale) := splitUnit (Text.trimChars text.toList)
  let x ← Double.read? (Text.trimChars number)
  if x.isFinite ∧ ¬ x.less .zero then pure (ofMillis (x.mul (.ofNat scale))) else none

/-- Milliseconds with their unit. -/
def text (d : Duration) : String := toString d.millis ++ "ms"

def toValue (d : Duration) : Value := .string d.text

def ofScalar : LooseScalar → Except Mismatch Duration
  | .int n => .ok ⟨n⟩
  | .float x => if Double.zero.atMost x then .ok (ofMillis x) else .error (.negativeDuration x)
  | .text s =>
    match parse? s with
    | some d => .ok d
    | none => .error (.duration s)

def decode : Decoder Duration := fun o d => LooseScalar.decode o d >>= ofScalar

end Duration

end Assay

import Assay.Document.Decode

namespace Assay

inductive LooseScalar
  | int (n : Nat)
  | float (x : Double)
  | text (s : String)

namespace LooseScalar

def ofInt (n : Int) : LooseScalar :=
  if 0 ≤ n then .int n.toNat else .float (.ofInt n)

def ofScalar : Scalar → Except Mismatch LooseScalar
  | .int n =>
    if -(Nat.pow 2 63 : Int) ≤ n ∧ n < Nat.pow 2 64 then .ok (ofInt n)
    else .error (.type (.int n) "any value")
  | .float x => .ok (.float x)
  | .text s => .ok (.text s)
  | .null | .bool _ => .error (.noVariant "RawScalar")

def decode : Decoder LooseScalar := fun _ d =>
  match d with
  | .number (.int n) => .ok (ofInt n)
  | .number (.float x) => .ok (.float x)
  | .string s => .ok (.text s)
  | .plain s => ofScalar (.ofPlain s)
  | _ => .error (.noVariant "RawScalar")

/-- The text of a scalar; numbers are written without an exponent. -/
def toText : LooseScalar → String
  | .int n => toString n
  | .float x => DecimalLayout.plain.write x
  | .text s => s

end LooseScalar

def Decoder.looseText : Decoder String := fun o d => (LooseScalar.decode o d).map LooseScalar.toText

end Assay

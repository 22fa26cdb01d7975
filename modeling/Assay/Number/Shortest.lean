import Assay.Number.Double

namespace Assay

structure Decimal where
  digits : Nat
  exponent : Int

def digitCount (n : Nat) : Nat := if n = 0 then 0 else (Nat.toDigits 10 n).length

/-- The magnitudes that round to a given finite double, in quarters of a quantum. The ends belong
to the range when the significand is even. -/
structure RoundingRange where
  low : Nat
  value : Nat
  high : Nat
  closed : Bool

namespace RoundingRange

def ofQuanta (quanta : Nat) : RoundingRange :=
  let excess := quanta.log2 + 1 - 53
  let significand := quanta / Nat.pow 2 excess
  let below :=
    if significand = Nat.pow 2 52 ∧ 0 < excess then Nat.pow 2 excess else 2 * Nat.pow 2 excess
  { low := 4 * quanta - below
    value := 4 * quanta
    high := 4 * quanta + 2 * Nat.pow 2 excess
    closed := significand % 2 == 0 }

/-- Whether `digits · scale / unit` quarters lie in the range. -/
def admits (r : RoundingRange) (digits scale unit : Nat) : Bool :=
  let x := digits * scale
  if r.closed then r.low * unit ≤ x && x ≤ r.high * unit
  else r.low * unit < x && x < r.high * unit

/-- The point of the grid `10 ^ exponent` nearest to the value among those that round to it. -/
def onGrid? (r : RoundingRange) (exponent : Int) : Option Decimal :=
  let scale := 4 * Double.one * Nat.pow 10 exponent.toNat
  let unit := Nat.pow 10 (-exponent).toNat
  let down := r.value * unit / scale
  let rest := r.value * unit % scale
  let downOk := r.admits down scale unit
  let upOk := r.admits (down + 1) scale unit
  let upNearer := 2 * rest > scale || (2 * rest == scale && down % 2 == 1)
  if downOk && (!upOk || !upNearer) then some ⟨down, exponent⟩
  else if upOk then some ⟨down + 1, exponent⟩
  else none

/-- The coarsest grid from `exponent` down that has a point, trying `tries` grids. -/
def search (r : RoundingRange) (exponent : Int) : Nat → Option Decimal
  | 0 => none
  | tries + 1 => (r.onGrid? exponent).orElse fun _ => r.search (exponent - 1) tries

end RoundingRange

/-- Move trailing zeros of the digits into the exponent, `steps` of them at most. -/
def Decimal.strip (d : Decimal) : Nat → Decimal
  | 0 => d
  | steps + 1 =>
    if d.digits % 10 = 0 ∧ d.digits ≠ 0 then strip ⟨d.digits / 10, d.exponent + 1⟩ steps else d

/-- How many decimal places the magnitude has before the point; negative when zeros follow it. -/
def decimalPlaces (quanta : Nat) : Int :=
  (digitCount (quanta * Nat.pow 10 330 / Double.one) : Int) - 330

/-- The decimal with the fewest digits that reads back as the given positive magnitude, and of
those the nearest to it. Seventeen digits always suffice. -/
def shortest (quanta : Nat) : Decimal :=
  if quanta = 0 then ⟨0, 0⟩
  else
    let first := decimalPlaces quanta - 1
    match (RoundingRange.ofQuanta quanta).search first 18 with
    | some d => d.strip 20
    | none => ⟨0, 0⟩

structure DecimalLayout where
  /-- Positional writing is used while the place of the point lies strictly above this. -/
  above : Option Int
  /-- And at most here. -/
  upTo : Option Int
  /-- Whether whole numbers end in `.0`. -/
  keepsPoint : Bool
  infinity : String
  notANumber : String

/-- JSON text: an exponent outside `1e-5 ≤ |x| < 1e16`, and a point in every positional number. -/
def DecimalLayout.json : DecimalLayout := ⟨some (-5), some 16, true, "null", "null"⟩

/-- Plain writing: never an exponent, no point in whole numbers. -/
def DecimalLayout.plain : DecimalLayout := ⟨none, none, false, "inf", "NaN"⟩

namespace DecimalLayout

def zeros (n : Int) : List Char := List.replicate n.toNat '0'

def positional (l : DecimalLayout) (ds : List Char) (point : Int) : List Char :=
  if point ≤ 0 then '0' :: '.' :: (zeros (-point) ++ ds)
  else if (ds.length : Int) ≤ point then
    ds ++ zeros (point - ds.length) ++ (if l.keepsPoint then ['.', '0'] else [])
  else ds.take point.toNat ++ '.' :: ds.drop point.toNat

def scientific (ds : List Char) (point : Int) : List Char :=
  let exponent := point - 1
  let head := match ds with
    | d :: e :: es => d :: '.' :: e :: es
    | ds => ds
  head ++ 'e' :: (if exponent < 0 then '-' else '+') :: Nat.toDigits 10 exponent.natAbs

def magnitude (l : DecimalLayout) (quanta : Nat) : List Char :=
  let d := shortest quanta
  let ds := Nat.toDigits 10 d.digits
  let point := if quanta = 0 then 1 else (ds.length : Int) + d.exponent
  if l.above.all (· < point) && l.upTo.all (point ≤ ·) then l.positional ds point
  else scientific ds point

def write (l : DecimalLayout) : Double → String
  | .finite negative quanta =>
    String.ofList ((if negative then ['-'] else []) ++ l.magnitude quanta)
  | .infinite negative => (if negative then "-" else "") ++ l.infinity
  | .nan => l.notANumber

end DecimalLayout

end Assay

import Assay.Number.Double
import Assay.Text.Split

namespace Assay

def digitsFrom (n : Nat) (cs : List Char) : Nat :=
  cs.foldl (fun n c => n * 10 + (c.toNat - 48)) n

def readNat? (cs : List Char) : Option Nat :=
  if cs.isEmpty || !cs.all Char.isDigit then none else some (digitsFrom 0 cs)

/-- A natural number up to `limit`; a plus sign and leading zeros may precede it. -/
def readUnsigned? (limit : Nat) (cs : List Char) : Option Nat :=
  let body := match cs with
    | '+' :: r => r
    | _ => cs
  (readNat? body).filter (· ≤ limit)

def readInt64? (cs : List Char) : Option Int :=
  match cs with
  | '-' :: r => (readNat? r).bind fun n => if n ≤ Nat.pow 2 63 then some (-(n : Int)) else none
  | _ => (readUnsigned? (Nat.pow 2 63 - 1) cs).map Int.ofNat

def hexDigit? (c : Char) : Option Nat :=
  if c.isDigit then some (c.toNat - 48)
  else if 'a' ≤ c ∧ c ≤ 'f' then some (c.toNat - 87)
  else if 'A' ≤ c ∧ c ≤ 'F' then some (c.toNat - 55)
  else none

/-- The value of digits in a base up to sixteen, at least one of them. -/
def readBase? (base : Nat) (cs : List Char) : Option Nat :=
  if cs.isEmpty then none
  else cs.foldl (fun acc c => acc.bind fun n =>
    (hexDigit? c).bind fun d => if d < base then some (n * base + d) else none) (some 0)

/-- The double nearest to `digits · 10 ^ exponent`. Exponents far outside the range of doubles are
settled by the number of places alone. -/
def Double.ofDecimal (negative : Bool) (digits : Nat) (exponent : Int) : Double :=
  let places := (if digits = 0 then 0 else (Nat.toDigits 10 digits).length : Int) + exponent
  if digits = 0 then .finite negative 0
  else if places > 400 then .infinite negative
  else if places < -400 then .finite negative 0
  else .ofRatio negative (digits * Nat.pow 10 exponent.toNat) (Nat.pow 10 (-exponent).toNat)

/-- The exponent part of a decimal numeral: nothing, or `e` with an optional sign and digits. -/
def readExponent? : List Char → Option Int
  | [] => some 0
  | e :: cs =>
    if e = 'e' ∨ e = 'E' then
      match cs with
      | '-' :: r => (readNat? r).map fun n => -(n : Int)
      | '+' :: r => (readNat? r).map Int.ofNat
      | _ => (readNat? cs).map Int.ofNat
    else none

/-- A decimal numeral without sign: digits with an optional point, at least one digit on either
side of it, and an optional exponent. -/
def readMagnitude? (negative : Bool) (cs : List Char) : Option Double :=
  let whole := cs.takeWhile Char.isDigit
  let rest := cs.dropWhile Char.isDigit
  let (fraction, tail) := match rest with
    | '.' :: r => (r.takeWhile Char.isDigit, r.dropWhile Char.isDigit)
    | _ => ([], rest)
  if whole.isEmpty && fraction.isEmpty then none
  else (readExponent? tail).map fun e =>
    .ofDecimal negative (digitsFrom 0 (whole ++ fraction)) (e - fraction.length)

/-- A number as people write it: a signed decimal numeral, or infinity or not-a-number by name in
any case. -/
def Double.read? (cs : List Char) : Option Double :=
  let (negative, body) := match cs with
    | '-' :: r => (true, r)
    | '+' :: r => (false, r)
    | _ => (false, cs)
  let name := String.ofList (body.map Char.toLower)
  if name == "inf" || name == "infinity" then some (.infinite negative)
  else if name == "nan" then some .nan
  else readMagnitude? negative body

end Assay

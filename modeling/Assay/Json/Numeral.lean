import Assay.Value
import Assay.Number.Reading
import Assay.Json.Fault

namespace Assay.Json

def maxUnsigned : Nat := Nat.pow 2 64 - 1

/-- A significand read digit by digit while it fits 64 bits, and how many digits were left over. -/
structure Significand where
  value : Nat
  taken : Nat
  left : Nat

def Significand.feed (s : Significand) (c : Char) : Significand :=
  let next := s.value * 10 + (c.toNat - 48)
  if s.left = 0 ∧ next ≤ maxUnsigned then ⟨next, s.taken + 1, 0⟩
  else ⟨s.value, s.taken, s.left + 1⟩

def Significand.extend (value : Nat) (ds : List Char) : Significand :=
  ds.foldl Significand.feed ⟨value, 0, 0⟩

def powerOfTen (n : Nat) : Double := .ofDecimal false 1 n

/-- Scale a significand by a power of ten, rounding the significand, each factor and each product.
Nothing when the result is too large. -/
def scale (x : Double) (exponent : Int) : Nat → Option Double
  | 0 => some x
  | rounds + 1 =>
    if exponent.natAbs ≤ 308 then
      if exponent ≥ 0 then
        let y := x.mul (powerOfTen exponent.natAbs)
        if y.isFinite then some y else none
      else some (x.div (powerOfTen exponent.natAbs))
    else if x.equals .zero then some x
    else if exponent ≥ 0 then none
    else scale (x.div (powerOfTen 308)) (exponent + 308) rounds

def float (positive : Bool) (significand : Nat) (exponent : Int) (c : Cursor) :
    Except Fault (Number × Cursor) :=
  match scale (.ofNat significand) exponent 4 with
  | some x => .ok (.float (if positive then x else x.neg), c)
  | none => .error (c.here .numberOutOfRange)

def maxExponent : Nat := Nat.pow 2 31 - 1

/-- Exponent digits one by one: the exponent, or where it became too large. -/
def exponentFrom (n : Nat) (c : Cursor) : List Char → Except Cursor Nat
  | [] => .ok n
  | d :: ds =>
    let next := n * 10 + (d.toNat - 48)
    if next ≤ maxExponent then exponentFrom next c.step ds else .error c.step

def readExponent (positive : Bool) (significand : Nat) (start : Int) (c : Cursor) :
    Except Fault (Number × Cursor) :=
  let c := c.step
  let (up, c) := match c.rest with
    | '+' :: _ => (true, c.step)
    | '-' :: _ => (false, c.step)
    | _ => (true, c)
  match c.rest with
  | [] => .error (c.here .endInValue)
  | d :: _ =>
    if !d.isDigit then .error (c.step.here .invalidNumber)
    else
      let (ds, after) := c.digits
      match exponentFrom 0 c ds with
      | .ok e => float positive significand (if up then start + e else start - e) after
      | .error place =>
        if significand ≠ 0 ∧ up then .error (place.here .numberOutOfRange)
        else .ok (.float (.finite (!positive) 0), after)

/-- From the point on, or from an exponent, or the end of an inexact number. -/
def readTail (positive : Bool) (significand : Nat) (exponent : Int) (c : Cursor) :
    Except Fault (Number × Cursor) :=
  match c.rest with
  | 'e' :: _ | 'E' :: _ => readExponent positive significand exponent c
  | _ => float positive significand exponent c

def readFraction (positive : Bool) (significand : Nat) (exponent : Int) (c : Cursor) :
    Except Fault (Number × Cursor) :=
  let c := c.step
  let (ds, after) := c.digits
  if ds.isEmpty then
    .error (c.ahead (if c.rest.isEmpty then .endInValue else .invalidNumber))
  else
    let s := Significand.extend significand ds
    readTail positive s.value (exponent - s.taken) after

/-- An integer that fits its 64 bits stays one; `-0` does not. -/
def exact (positive : Bool) (significand : Nat) : Number :=
  if positive then .int significand
  else if 0 < significand ∧ significand ≤ Nat.pow 2 63 then .int (-(significand : Int))
  else .float (Double.ofNat significand).neg

def readNumber (positive : Bool) (c : Cursor) : Except Fault (Number × Cursor) :=
  match c.rest with
  | [] => .error (c.here .endInValue)
  | d :: _ =>
    if !d.isDigit then .error (c.step.here .invalidNumber)
    else
      let (ds, after) := if d = '0' then (['0'], c.step) else c.digits
      if d = '0' && (after.rest.head?.any Char.isDigit) then .error (after.ahead .invalidNumber)
      else
        let s := Significand.extend 0 ds
        match after.rest with
        | '.' :: _ => readFraction positive s.value s.left after
        | 'e' :: _ | 'E' :: _ => readExponent positive s.value s.left after
        | _ =>
          if s.left = 0 then .ok (exact positive s.value, after)
          else float positive s.value s.left after

end Assay.Json

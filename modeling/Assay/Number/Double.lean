namespace Assay

/-- A double-precision number. A finite one is a signed whole number of quanta, the quantum being
the least positive double, `2 ^ -1074`. -/
inductive Double
  | finite (negative : Bool) (quanta : Nat)
  | infinite (negative : Bool)
  | nan
deriving DecidableEq

namespace Double

/-- How many quanta make one. -/
def one : Nat := Nat.pow 2 1074

/-- Magnitudes from here on are infinite. -/
def bound : Nat := Nat.pow 2 2098

/-- The whole number nearest to `num / den` that has at most 53 significant bits; a tie goes to
the even significand. -/
def nearest (num den : Nat) : Nat :=
  let excess := (num / den).log2 + 1 - 53
  let unit := den * Nat.pow 2 excess
  let down := num / unit
  let rest := num % unit
  let up := 2 * rest > unit || (2 * rest == unit && down % 2 == 1)
  (if up then down + 1 else down) * Nat.pow 2 excess

/-- The finite doubles: magnitudes of at most 53 significant bits below the bound. -/
def Representable : Double → Prop
  | finite _ quanta => nearest quanta 1 = quanta ∧ quanta < bound
  | infinite _ => True
  | nan => True

def ofQuanta (negative : Bool) (quanta : Nat) : Double :=
  if quanta < bound then finite negative quanta else infinite negative

def ofRatio (negative : Bool) (num den : Nat) : Double :=
  ofQuanta negative (nearest (num * one) den)

def ofNat (n : Nat) : Double := ofRatio false n 1

def ofInt (n : Int) : Double := ofRatio (decide (n < 0)) n.natAbs 1

def zero : Double := finite false 0

def isFinite : Double → Bool
  | finite .. => true
  | _ => false

def isNaN : Double → Bool
  | nan => true
  | _ => false

def neg : Double → Double
  | finite negative quanta => finite (!negative) quanta
  | infinite negative => infinite (!negative)
  | nan => nan

/-- The place of a number in the order of doubles; the two zeros share one. -/
def rank? : Double → Option Int
  | finite negative quanta => some (if negative then -(quanta : Int) else quanta)
  | infinite negative => some (if negative then -(bound : Int) else bound)
  | nan => none

/-- The order of two numbers, defined unless one of them is not a number. -/
def compare? (x y : Double) : Option Ordering := do
  let a ← x.rank?
  let b ← y.rank?
  pure (compare a b)

def equals (x y : Double) : Bool := x.compare? y == some .eq

def less (x y : Double) : Bool := x.compare? y == some .lt

def atMost (x y : Double) : Bool := x.less y || x.equals y

/-- A sum of finite numbers is rounded once; an exact zero is negative only if both terms are. -/
def add : Double → Double → Double
  | finite s a, finite t b =>
    if s = t then ofQuanta s (nearest (a + b) 1)
    else if a = b then zero
    else if a < b then ofQuanta t (nearest (b - a) 1)
    else ofQuanta s (nearest (a - b) 1)
  | finite .., infinite t => infinite t
  | infinite s, finite .. => infinite s
  | infinite s, infinite t => if s = t then infinite s else nan
  | _, _ => nan

def mul : Double → Double → Double
  | finite s a, finite t b => ofQuanta (s != t) (nearest (a * b) one)
  | finite s a, infinite t => if a = 0 then nan else infinite (s != t)
  | infinite s, finite t b => if b = 0 then nan else infinite (s != t)
  | infinite s, infinite t => infinite (s != t)
  | _, _ => nan

def div : Double → Double → Double
  | finite s a, finite t b =>
    if b = 0 then (if a = 0 then nan else infinite (s != t)) else ofRatio (s != t) a b
  | finite s _, infinite t => finite (s != t) 0
  | infinite s, finite t _ => infinite (s != t)
  | _, _ => nan

/-- Repeated squaring, each product rounded. -/
def powNat (result base : Double) (n : Nat) : Double :=
  let result := if n % 2 = 1 then result.mul base else result
  if h : n / 2 = 0 then result else powNat result (base.mul base) (n / 2)
termination_by n
decreasing_by omega

/-- A whole power; a negative exponent takes the reciprocal of the positive power. -/
def pow (x : Double) (n : Int) : Double :=
  let magnitude := powNat (ofNat 1) x n.natAbs
  if n < 0 then (ofNat 1).div magnitude else magnitude

/-- The nearest whole number, halves away from zero, held within `[0, limit]`. -/
def toNatClamped (limit : Nat) : Double → Nat
  | finite true _ => 0
  | finite false quanta => min limit ((2 * quanta + one) / (2 * one))
  | infinite negative => if negative then 0 else limit
  | nan => 0

/-- The larger of the two; not a number counts as absent. -/
def maximum : Double → Double → Double
  | nan, y => y
  | x, nan => x
  | x, y => if x.less y then y else x

end Double

end Assay

import Assay.Suite.Retry

namespace Assay

/-- The quotient rounded to the nearest whole number; a tie goes to the even one. -/
def roundedQuotient (num den : Nat) : Nat :=
  let down := num / den
  let rest := num % den
  if 2 * rest > den || (2 * rest == den && down % 2 == 1) then down + 1 else down

def nanosPerSecond : Nat := 1000000000

/-- A number of seconds in nanoseconds; nothing when it is no length of time below `2 ^ 64`
seconds. -/
def Double.secondsToNanos? : Double → Option Nat
  | .finite negative quanta =>
    if negative && quanta != 0 then none
    else if Nat.pow 2 64 * Double.one ≤ quanta then none
    else some (roundedQuotient (quanta * nanosPerSecond) Double.one)
  | _ => none

def Duration.toSeconds (d : Duration) : Double :=
  (Double.ofNat (d.millis / 1000)).add
    ((Double.ofNat (d.millis % 1000 * 1000000)).div (.ofNat nanosPerSecond))

def Duration.toNanos (d : Duration) : Nat := d.millis * 1000000

namespace RetryPolicy

def usualMultiplier : Double := .ofNat 2

/-- An exponent is held in 32 bits with a sign. -/
def exponent (attempt : Nat) : Int := ((attempt - 1 : Nat) : Int).bmod (Nat.pow 2 32)

/-- How many nanoseconds are waited after the failed attempt of that number, the first being one.
Nothing when the delay is longer than can be waited. -/
def delayAfter? (p : RetryPolicy) (attempt : Nat) : Option Nat :=
  match p.backoff with
  | none | some .linear => some p.delay.toNanos
  | some .exponential =>
    let factor := ((p.multiplier.getD usualMultiplier).maximum .zero).pow (exponent attempt)
    (factor.mul p.delay.toSeconds).secondsToNanos?

end RetryPolicy

end Assay

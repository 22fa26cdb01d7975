import Assay.Unit.Duration
import Assay.Document.Record

namespace Assay

inductive Backoff
  | linear
  | exponential
deriving DecidableEq

structure RetryPolicy where
  maxAttempts : Nat
  delay : Duration
  backoff : Option Backoff
  multiplier : Option Double
deriving DecidableEq

namespace RetryPolicy

def backoffs : List (String × Backoff) :=
  [("linear", .linear), ("exponential", .exponential)]

def record : Record RetryPolicy :=
  RetryPolicy.mk <$> .optional "maxAttempts" 1 .attempts <*>
    .optional "delay" ⟨0⟩ Duration.decode <*>
    .option "backoff" (.variant backoffs) <*> .option "backoffMultiplier" .float

def decode : Decoder RetryPolicy := record.decode "RetryPolicy" false

def backoffName : Backoff → String
  | .linear => "linear"
  | .exponential => "exponential"

def multiplierValue (x : Double) : Value := if x.isFinite then .number (.float x) else .null

def toValue (p : RetryPolicy) : Value :=
  .object
    [("maxAttempts", .nat p.maxAttempts), ("delay", p.delay.toValue),
      ("backoff", .ofOption (fun b => .string (backoffName b)) p.backoff),
      ("backoffMultiplier", .ofOption multiplierValue p.multiplier)]

def retries (p : RetryPolicy) : Bool := p.maxAttempts > 1

/-- The policy of the case, else of the suite, else of the whole run. It is never mixed of
several. -/
def effective (case suite global : Option RetryPolicy) : Option RetryPolicy :=
  case.or (suite.or global)

end RetryPolicy

end Assay

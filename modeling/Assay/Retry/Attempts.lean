import Assay.Retry.Delay
import Assay.World

namespace Assay

structure Outcome where
  passed : Bool
  attempts : List Attempt
  finalError : Option String

namespace RetryPolicy

def pause (p : RetryPolicy) (number : Nat) : Run Unit :=
  match p.delayAfter? number with
  | some nanos => Run.sleep nanos
  | none => Run.sleepForever

def attempt {σ : Type} (once : σ → Run (Option String × σ)) (number : Nat) (s : σ) :
    Run (Attempt × σ) := do
  let start ← Run.clock
  let (error, s) ← once s
  let stop ← Run.clock
  pure (⟨number, error.isNone, error, stop - start, start⟩, s)

/-- Try until an attempt passes, `left` more times at most, the next one being number `number`.
Each attempt starts from the state that the one before it left. -/
def tryFrom {σ : Type} (p : RetryPolicy) (once : σ → Run (Option String × σ)) (number : Nat) :
    Nat → σ → Run (Outcome × σ)
  | 0, s => pure (⟨false, [], none⟩, s)
  | left + 1, s => do
    let (a, s) ← attempt once number s
    if a.passed then pure (⟨true, [a], none⟩, s)
    else if left = 0 then pure (⟨false, [a], a.error⟩, s)
    else do
      p.pause number
      let (rest, s) ← tryFrom p once (number + 1) left s
      pure ({ rest with attempts := a :: rest.attempts }, s)

/-- Try as often as the policy says, at least once. -/
def tryAll {σ : Type} (p : RetryPolicy) (once : σ → Run (Option String × σ)) (s : σ) :
    Run (Outcome × σ) :=
  p.tryFrom once 1 (max p.maxAttempts 1) s

end RetryPolicy

end Assay

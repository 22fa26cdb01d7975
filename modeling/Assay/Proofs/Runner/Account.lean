import Assay.Proofs.Runner.Steady
import Assay.Proofs.Script.Recorded
import Assay.Rehearsal.Pool

namespace Assay

open Script (Exchange)

/-- Those who carry out commands, answer requests and take connections. What they answer, and how
long it takes them, depends on what they were asked before and not on the time. -/
def Collaborators (σ : Type) := (q : Query) → q.IsProbe → σ → Nat × q.Answer × σ

/-- Somebody who collects diagnostics: how long it takes, and what comes of it. -/
def Examiner (κ : Type) :=
  DiagnosticsRequest → Nat → κ → Nat × Except Error DiagnosticsReport × κ

def Examiner.Instant {κ : Type} (d : Examiner κ) : Prop :=
  ∀ request now k, (d request now k).1 = 0

/-- A world of collaborators where perhaps somebody collects diagnostics. Without a collector nobody
answers who is asked for them. -/
def Collaborators.world {σ κ : Type} (c : Collaborators σ) (d : Option (Examiner κ)) :
    Responder Query.Answer (σ × κ)
  | .exec target command limit, _, (w, k) =>
    let (takes, a, w) := c (.exec target command limit) trivial w
    some (takes, a, w, k)
  | .send request limit, _, (w, k) =>
    let (takes, a, w) := c (.send request limit) trivial w
    some (takes, a, w, k)
  | .connect host port limit, _, (w, k) =>
    let (takes, a, w) := c (.connect host port limit) trivial w
    some (takes, a, w, k)
  | .sleep nanos, _, s => some (Rehearsal.sleepMillis nanos, (), s)
  | .sleepForever, _, _ => none
  | .clock, now, s => some (0, now, s)
  | .emit _, _, s => some (0, (), s)
  | .collect request, now, (w, k) =>
    d.map fun collect =>
      let (takes, a, k) := collect request now k
      (takes, a, w, k)

/-- What is known of a suite when it has been run. -/
structure SuiteAccount where
  summary : Summary
  left : Context
  calls : List (Exchange Query.Answer)
  events : List Event

/-- Run a suite and give account of it. There is none when the run does not come to its end. -/
def Runner.account [Libraries] {τ : Type} (r : Runner) (suite : Suite) (options : RunOptions)
    (ctx : Context) (respond : Responder Query.Answer τ) (now : Nat) (w : τ) :
    Option SuiteAccount :=
  ((r.runSuite suite options ctx).recorded respond now w).map fun x =>
    ⟨x.2.1.1, x.2.1.2, callsOf x.1, eventsOf x.1⟩

end Assay

import Assay.Rehearsal.Play
import Assay.Runner.Batch

namespace Assay

/-- Scripts that take turns: those that wait for a free slot, those that can go on, in the order
in which they do, those that sleep, by the time when they wake, and the results of those that have
ended, last one first. -/
structure Pool {Q : Type} (A : Q → Type) (α : Type) where
  waiting : List (Script A α)
  ready : List (Script A α)
  asleep : List (Nat × Script A α)
  finished : List α

namespace Pool

variable {Q : Type} {A : Q → Type} {α σ : Type}

def inFlight (p : Pool A α) : Nat := p.ready.length + p.asleep.length

def fill (slots : Nat) (p : Pool A α) : Pool A α :=
  let free := slots - p.inFlight
  { p with ready := p.ready ++ p.waiting.take free, waiting := p.waiting.drop free }

def start (slots : Nat) (scripts : List (Script A α)) : Pool A α :=
  fill slots ⟨scripts, [], [], []⟩

/-- Put a sleeper in its place; of those that wake at one time the earlier sleeper comes first. -/
def insert (wake : Nat) (script : Script A α) :
    List (Nat × Script A α) → List (Nat × Script A α)
  | [] => [(wake, script)]
  | s :: ss => if wake < s.1 then (wake, script) :: s :: ss else s :: insert wake script ss

/-- Let the first ready script go on until it sleeps or ends. When none is ready, time passes until
the first sleeper wakes. -/
def turn (respond : Responder A σ) (slots : Nat) (p : Pool A α) (now : Nat) (s : σ) :
    Option (Pool A α × Nat × σ) :=
  match p.ready with
  | script :: ready =>
    match script.slice respond now s with
    | none => none
    | some (.finished a, s) =>
      some (fill slots { p with ready := ready, finished := a :: p.finished }, now, s)
    | some (.asleep wake rest, s) =>
      some ({ p with ready := ready, asleep := insert wake rest p.asleep }, now, s)
  | [] =>
    match p.asleep with
    | (wake, script) :: asleep =>
      some ({ p with ready := [script], asleep := asleep }, max now wake, s)
    | [] => some (p, now, s)

def isOver (p : Pool A α) : Bool := p.ready.isEmpty && p.asleep.isEmpty

/-- Take turns, at most `turns` of them, until all scripts have ended: their results in the order
in which they ended, and the time and state then. -/
def play (respond : Responder A σ) (slots : Nat) :
    Nat → Pool A α → Nat → σ → Option (List α × Nat × σ)
  | 0, _, _, _ => none
  | turns + 1, p, now, s =>
    if p.isOver then some (p.finished.reverse, now, s)
    else
      match p.turn respond slots now s with
      | none => none
      | some (p, now, s) => play respond slots turns p now s

end Pool

end Assay

namespace Assay.Rehearsal

variable [Libraries]

def sleepMillis (nanos : Nat) : Nat := (nanos + 999999) / 1000000

def turnLimit : Nat := Nat.pow 2 62

/-- Run a batch from the time zero: the sequential group, then the parallel group on copies of the
context that it left. The summaries, that context, and the time and state of the world at the
end. -/
def playBatch {σ : Type} (respond : Responder Query.Answer σ) (r : Runner)
    (batch : List BatchEntry) (limit : Option Nat) (ctx : Context) (s : σ) :
    Option (List Summary × Context × Nat × σ) := do
  let ((first, ctx), now, s) ← (r.runInTurn (sequentialGroup batch) ctx).play respond 0 s
  let group := parallelGroup batch
  let places := slots limit group
  let pool := Pool.start places (group.map (r.runApart ctx))
  let (second, now, s) ← pool.play respond places turnLimit now s
  pure (first ++ second, ctx, now, s)

end Assay.Rehearsal

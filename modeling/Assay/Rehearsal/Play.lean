import Assay.Script

namespace Assay

/-- How a scripted world answers a question at a time: after so many milliseconds, with an answer,
and in a new state. A question without an answer stops everything. -/
abbrev Responder {Q : Type} (A : Q → Type) (σ : Type) := (q : Q) → Nat → σ → Option (Nat × A q × σ)

namespace Script

variable {Q : Type} {A : Q → Type} {α σ : Type}

/-- Play a script from a time and a state of the world: its result and the time and state after
it. -/
def play (respond : Responder A σ) : Script A α → Nat → σ → Option (α × Nat × σ)
  | done a, now, s => some (a, now, s)
  | ask q next, now, s =>
    match respond q now s with
    | none => none
    | some (delay, r, s) => play respond (next r) (now + delay) s

/-- How far a script gets before it has to wait: to its end, or to a time when it goes on. -/
inductive Slice (A : Q → Type) (α : Type)
  | finished (a : α)
  | asleep (wake : Nat) (rest : Script A α)

def slice (respond : Responder A σ) : Script A α → Nat → σ → Option (Slice A α × σ)
  | done a, _, s => some (.finished a, s)
  | ask q next, now, s =>
    match respond q now s with
    | none => none
    | some (0, r, s) => slice respond (next r) now s
    | some (delay, r, s) => some (.asleep (now + delay) (next r), s)

end Script

def Responder.through {P Q : Type} {B : P → Type} {A : Q → Type} {σ : Type}
    (respond : Responder B σ) (answer : (q : Q) → Script B (A q)) : Responder A σ :=
  fun q now s =>
    match (answer q).play respond now s with
    | none => none
    | some (r, later, s) => some (later - now, r, s)

end Assay

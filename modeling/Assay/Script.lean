namespace Assay

/-- A computation that asks questions of the world. Each question `q` has its own type `A q` of
answers, and the computation goes on with the answer it gets. -/
inductive Script {Q : Type} (A : Q → Type) (α : Type)
  | done (a : α)
  | ask (q : Q) (next : A q → Script A α)

namespace Script

variable {Q : Type} {A : Q → Type} {α β : Type}

def query (q : Q) : Script A (A q) := .ask q .done

protected def bind : Script A α → (α → Script A β) → Script A β
  | done a, f => f a
  | ask q next, f => .ask q fun r => (next r).bind f

instance : Monad (Script A) where
  pure := done
  bind := Script.bind

theorem pure_bind (a : α) (f : α → Script A β) : (pure a : Script A α) >>= f = f a := rfl

theorem ask_bind (q : Q) (next : A q → Script A α) (f : α → Script A β) :
    Script.ask q next >>= f = .ask q fun r => next r >>= f := rfl

def each {σ : Type} (step : σ → α → Script A σ) : σ → List α → Script A σ
  | s, [] => pure s
  | s, a :: as => do
    let s ← step s a
    each step s as

def run {m : Type → Type} [Monad m] (answer : (q : Q) → m (A q)) : Script A α → m α
  | done a => pure a
  | ask q next => do
    let r ← answer q
    (next r).run answer

end Script

end Assay

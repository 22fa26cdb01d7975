import Assay.Proofs.Script.Runs
import Assay.World

namespace Assay.Script

variable {Q : Type} {A : Q → Type} {α β σ : Type} {P R : Q → Prop}

/-- Whatever the answers are, only such questions are asked. -/
inductive AsksOnly (P : Q → Prop) : Script A α → Prop
  | done (a : α) : AsksOnly P (.done a)
  | ask {q : Q} {next : A q → Script A α} (here : P q) (rest : ∀ r, AsksOnly P (next r)) :
      AsksOnly P (.ask q next)

theorem asksOnly_pure (a : α) : AsksOnly P (pure a : Script A α) := .done a

theorem asksOnly_query {q : Q} (h : P q) : AsksOnly P (query q : Script A (A q)) :=
  .ask h fun r => .done r

theorem asksOnly_bind {s : Script A α} {f : α → Script A β}
    (hs : AsksOnly P s) (hf : ∀ a, AsksOnly P (f a)) : AsksOnly P (s >>= f) := by
  induction hs with
  | done a => exact hf a
  | ask here rest ih => exact .ask here ih

theorem asksOnly_each {step : σ → α → Script A σ} {as : List α} (s : σ)
    (h : ∀ s, ∀ a ∈ as, AsksOnly P (step s a)) : AsksOnly P (each step s as) := by
  induction as generalizing s with
  | nil => exact .done s
  | cons a as ih =>
    refine asksOnly_bind (h s a (by simp)) fun t => ?_
    exact ih t fun t b hb => h t b (by simp [hb])

theorem AsksOnly.mono {s : Script A α} (h : AsksOnly P s) (hPR : ∀ q, P q → R q) :
    AsksOnly R s := by
  induction h with
  | done a => exact .done a
  | ask here rest ih => exact .ask (hPR _ here) ih

theorem AsksOnly.of_mem {s t : Script A α} {es : List (Exchange A)} (h : AsksOnly P s)
    (hs : s.Reaches es t) : ∀ e ∈ es, P e.1 := by
  induction hs with
  | refl s => simp
  | ask rest ih =>
    cases h with
    | ask here more =>
      intro e he
      rcases List.mem_cons.mp he with rfl | he
      · exact here
      · exact ih (more _) e he

theorem AsksOnly.left {s t : Script A α} {es : List (Exchange A)} (h : AsksOnly P s)
    (hs : s.Reaches es t) : AsksOnly P t := by
  induction hs with
  | refl s => exact h
  | ask rest ih =>
    cases h with
    | ask here more => exact ih (more _)

/-- A script is played to its end when every question it may ask is answered. -/
theorem play_isSome {respond : Responder A σ} {s : Script A α} (h : AsksOnly P s)
    (answers : ∀ q now w, P q → (respond q now w).isSome) (now : Nat) (w : σ) :
    (s.play respond now w).isSome := by
  induction h generalizing now w with
  | done a => rfl
  | @ask q next here rest ih =>
    obtain ⟨⟨delay, r, w'⟩, hr⟩ := Option.isSome_iff_exists.mp (answers q now w here)
    simp only [play, hr]
    exact ih r _ _

/-- A script that tells its result by its last question and by no other. -/
inductive Announces (told : Q → Option α) : Script A α → Prop
  | last {q : Q} {next : A q → Script A α} {a : α} (here : told q = some a)
      (ends : ∀ r, next r = .done a) : Announces told (.ask q next)
  | more {q : Q} {next : A q → Script A α} (silent : told q = none)
      (rest : ∀ r, Announces told (next r)) : Announces told (.ask q next)

theorem announces_bind {told : Q → Option β} {s : Script A α} {f : α → Script A β}
    (hs : AsksOnly (told · = none) s) (hf : ∀ a, Announces told (f a)) :
    Announces told (s >>= f) := by
  induction hs with
  | done a => exact hf a
  | ask here rest ih => exact .more here ih

theorem Announces.of_reaches {told : Q → Option α} {s t : Script A α} {es : List (Exchange A)}
    (h : Announces told s) (hs : s.Reaches es t) :
    (Announces told t ∧ es.filterMap (fun e => told e.1) = []) ∨
      ∃ a, t = .done a ∧ es.filterMap (fun e => told e.1) = [a] := by
  induction hs with
  | refl s => exact .inl ⟨h, rfl⟩
  | @ask q next r es t rest ih =>
    cases h with
    | last here ends =>
      rw [ends r] at rest
      cases rest
      exact .inr ⟨_, rfl, by simp [here]⟩
    | more silent more =>
      simpa [List.filterMap_cons, silent] using ih (more r)

end Assay.Script

namespace Assay.Trial

open Script (asksOnly_query)

variable {α β : Type} {P R : Query → Prop}

/-- The same of a run that an error may end. -/
def AsksOnly (P : Query → Prop) (x : Trial α) : Prop := Script.AsksOnly P (ExceptT.run x)

theorem asksOnly_pure (a : α) : AsksOnly P (pure a : Trial α) := .done _

theorem asksOnly_throw (e : Error) : AsksOnly P (throw e : Trial α) := .done _

theorem asksOnly_except (x : Except Error α) : AsksOnly P (liftM x : Trial α) := .done _

theorem asksOnly_run {s : Run α} (h : Script.AsksOnly P s) : AsksOnly P (liftM s : Trial α) :=
  Script.asksOnly_bind h fun _ => .done _

theorem asksOnly_bind {x : Trial α} {f : α → Trial β} (hx : AsksOnly P x)
    (hf : ∀ a, AsksOnly P (f a)) : AsksOnly P (x >>= f) := by
  refine Script.asksOnly_bind hx fun a => ?_
  cases a with
  | ok a => exact hf a
  | error e => exact .done _

end Assay.Trial

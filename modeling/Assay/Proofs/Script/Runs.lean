import Assay.Rehearsal.Play
import Mathlib.Data.List.Forall2

namespace Assay.Script

variable {Q : Type} {A : Q → Type} {α β σ : Type}

/-- A question with the answer it got. -/
abbrev Exchange (A : Q → Type) := (q : Q) × A q

/-- What is left of a script after some exchanges. Nothing is said about who answers, or how. -/
inductive Reaches : Script A α → List (Exchange A) → Script A α → Prop
  | refl (s : Script A α) : Reaches s [] s
  | ask {q : Q} {next : A q → Script A α} {r : A q} {es : List (Exchange A)} {t : Script A α}
      (rest : Reaches (next r) es t) : Reaches (.ask q next) (⟨q, r⟩ :: es) t

/-- All exchanges of a script from beginning to end, with its result. -/
abbrev Runs (s : Script A α) (es : List (Exchange A)) (a : α) : Prop := Reaches s es (.done a)

theorem bind_assoc {γ : Type} (s : Script A α) (f : α → Script A β) (g : β → Script A γ) :
    s >>= f >>= g = s >>= fun a => f a >>= g := by
  induction s with
  | done a => rfl
  | ask q next ih => exact congrArg (Script.ask q) (funext ih)

theorem Reaches.trans {s t u : Script A α} {es fs : List (Exchange A)}
    (h : s.Reaches es t) (g : t.Reaches fs u) : s.Reaches (es ++ fs) u := by
  induction h with
  | refl s => exact g
  | ask rest ih => exact .ask (ih g)

theorem Reaches.answer {s : Script A α} {es : List (Exchange A)} {q : Q}
    {next : A q → Script A α} (h : s.Reaches es (.ask q next)) (r : A q) :
    s.Reaches (es ++ [⟨q, r⟩]) (next r) := h.trans (.ask (.refl _))

theorem runs_done {a b : α} {es : List (Exchange A)} (h : (pure a : Script A α).Runs es b) :
    es = [] ∧ b = a := by
  cases h
  exact ⟨rfl, rfl⟩

theorem runs_query {q : Q} {es : List (Exchange A)} {r : A q}
    (h : (query q : Script A (A q)).Runs es r) : es = [⟨q, r⟩] := by
  cases h with
  | ask rest =>
    cases rest
    rfl

theorem runs_ask {q : Q} {next : A q → Script A α} {es : List (Exchange A)} {a : α} :
    (ask q next).Runs es a ↔ ∃ r fs, (next r).Runs fs a ∧ es = ⟨q, r⟩ :: fs := by
  constructor
  · rintro (_ | rest)
    exact ⟨_, _, rest, rfl⟩
  · rintro ⟨r, fs, rest, rfl⟩
    exact .ask rest

theorem runs_query_bind {q : Q} {f : A q → Script A β} {es : List (Exchange A)} {b : β}
    (h : (query q >>= f).Runs es b) : ∃ a fs, (f a).Runs fs b ∧ es = ⟨q, a⟩ :: fs :=
  runs_ask.mp h

theorem runs_unique {s : Script A α} {es : List (Exchange A)} {a b : α} (h : s.Runs es a)
    (g : s.Runs es b) : b = a := by
  induction s generalizing es with
  | done c =>
    rw [(runs_done h).2, (runs_done g).2]
  | ask q next ih =>
    cases h with
    | ask rest =>
      cases g with
      | ask rest' => exact ih _ rest rest'

/-- A run of two scripts one after the other is a run of the first and one of the second. -/
theorem runs_bind {s : Script A α} {f : α → Script A β} {es : List (Exchange A)} {b : β}
    (h : (s >>= f).Runs es b) :
    ∃ fs gs a, s.Runs fs a ∧ (f a).Runs gs b ∧ es = fs ++ gs := by
  induction s generalizing es with
  | done a => exact ⟨[], es, a, .refl _, h, rfl⟩
  | ask q next ih =>
    cases h with
    | ask rest =>
      obtain ⟨fs, gs, a, hs, hf, rfl⟩ := ih _ rest
      exact ⟨_, gs, a, .ask hs, hf, rfl⟩

theorem Reaches.bind {s t : Script A α} {es : List (Exchange A)} (h : s.Reaches es t)
    (f : α → Script A β) : (s >>= f).Reaches es (t >>= f) := by
  induction h with
  | refl s => exact .refl _
  | ask rest ih => exact .ask ih

theorem Runs.bind {s : Script A α} {f : α → Script A β} {es fs : List (Exchange A)} {a : α} {b : β}
    (h : s.Runs es a) (g : (f a).Runs fs b) : (s >>= f).Runs (es ++ fs) b :=
  (Reaches.bind h f).trans g

theorem runs_map {s : Script A α} {f : α → β} {es : List (Exchange A)} {b : β} :
    (s >>= fun a => pure (f a)).Runs es b ↔ ∃ a, s.Runs es a ∧ b = f a := by
  constructor
  · intro h
    obtain ⟨fs, gs, a, hs, hf, rfl⟩ := runs_bind h
    obtain ⟨rfl, rfl⟩ := runs_done hf
    exact ⟨a, by rwa [List.append_nil], rfl⟩
  · rintro ⟨a, hs, rfl⟩
    exact Reaches.bind hs fun a => pure (f a)

/-- The runs, one for each element, of something done for each element in order. -/
inductive Rounds (step : σ → α → Script A σ) :
    σ → List α → List (List (Exchange A)) → σ → Prop
  | nil (s : σ) : Rounds step s [] [] s
  | cons {s t u : σ} {a : α} {as : List α} {es : List (Exchange A)} {ess : List (List (Exchange A))}
      (first : (step s a).Runs es t) (rest : Rounds step t as ess u) :
      Rounds step s (a :: as) (es :: ess) u

theorem runs_each {step : σ → α → Script A σ} {s t : σ} {as : List α} {es : List (Exchange A)}
    (h : (each step s as).Runs es t) : ∃ ess, Rounds step s as ess t ∧ es = ess.flatten := by
  induction as generalizing s es with
  | nil =>
    obtain ⟨rfl, rfl⟩ := runs_done h
    exact ⟨[], .nil t, rfl⟩
  | cons a as ih =>
    obtain ⟨fs, gs, u, hfirst, hrest, rfl⟩ := runs_bind h
    obtain ⟨ess, hess, rfl⟩ := ih hrest
    exact ⟨fs :: ess, .cons hfirst hess, rfl⟩

theorem Rounds.forall₂ {step : σ → α → Script A σ} {P : α → List (Exchange A) → Prop} {s t : σ}
    {as : List α} {ess : List (List (Exchange A))} (h : Rounds step s as ess t)
    (hP : ∀ s a es t, (step s a).Runs es t → P a es) : List.Forall₂ P as ess := by
  induction h with
  | nil s => exact .nil
  | cons first rest ih => exact .cons (hP _ _ _ _ first) ih

/-- Parts, one for each element, each from the state that the one before it left. -/
inductive Stages {E : Type} (P : α → σ → List E → σ → Prop) :
    List α → σ → List (List E) → σ → Prop
  | nil (s : σ) : Stages P [] s [] s
  | cons {s t u : σ} {a : α} {as : List α} {es : List E} {ess : List (List E)}
      (first : P a s es t) (rest : Stages P as t ess u) : Stages P (a :: as) s (es :: ess) u

theorem Rounds.stages {step : σ → α → Script A σ} {P : α → σ → List (Exchange A) → σ → Prop}
    {s t : σ} {as : List α} {ess : List (List (Exchange A))} (h : Rounds step s as ess t)
    (hP : ∀ s a es t, (step s a).Runs es t → P a s es t) : Stages P as s ess t := by
  induction h with
  | nil s => exact .nil s
  | cons first rest ih => exact .cons (hP _ _ _ _ first) ih

/-- The exchanges of a script that is played. -/
def exchanges (respond : Responder A σ) : Script A α → Nat → σ → List (Exchange A)
  | done _, _, _ => []
  | ask q next, now, w =>
    match respond q now w with
    | none => []
    | some (delay, r, w) => ⟨q, r⟩ :: exchanges respond (next r) (now + delay) w

theorem runs_of_play {respond : Responder A σ} {s : Script A α} {now later : Nat} {w w' : σ} {a : α}
    (h : s.play respond now w = some (a, later, w')) : s.Runs (s.exchanges respond now w) a := by
  induction s generalizing now w with
  | done b =>
    simp only [play, Option.some.injEq, Prod.mk.injEq] at h
    rw [h.1]
    exact .refl _
  | ask q next ih =>
    simp only [play, exchanges] at h ⊢
    cases hr : respond q now w with
    | none => simp [hr] at h
    | some answer =>
      simp only [hr] at h
      exact .ask (ih _ h)

/-- The exchanges of one of several scripts, when each exchange goes by the name of its script. -/
def share {ι : Type} [DecidableEq ι] (i : ι) (es : List (ι × Exchange A)) : List (Exchange A) :=
  es.filterMap fun e => if e.1 = i then some e.2 else none

section Share

variable {ι : Type} [DecidableEq ι]

@[simp]
theorem share_nil (i : ι) : share (A := A) i [] = [] := rfl

@[simp]
theorem share_append (i : ι) (es fs : List (ι × Exchange A)) :
    share i (es ++ fs) = share i es ++ share i fs := List.filterMap_append

@[simp]
theorem share_self (i : ι) (e : Exchange A) : share i [(i, e)] = [e] := by
  simp [share]

theorem mem_share {i : ι} {es : List (ι × Exchange A)} {x : Exchange A} :
    x ∈ share i es ↔ (i, x) ∈ es := by
  simp only [share, List.mem_filterMap, Option.ite_none_right_eq_some, Option.some.injEq]
  constructor
  · rintro ⟨e, he, rfl, rfl⟩
    exact he
  · intro h
    exact ⟨_, h, rfl, rfl⟩

theorem share_eq_nil {i : ι} {es : List (ι × Exchange A)} (h : ∀ e ∈ es, e.1 ≠ i) :
    share i es = [] := List.filterMap_eq_nil_iff.mpr fun e he => if_neg (h e he)

theorem share_map {κ : Type} [DecidableEq κ] {f : ι → κ} (hf : f.Injective) (i : ι)
    (es : List (ι × Exchange A)) : share (f i) (es.map (Prod.map f id)) = share i es := by
  simp only [share, List.filterMap_map]
  congr 1
  funext e
  by_cases h : e.1 = i
  · simp [h]
  · have hne : f e.1 ≠ f i := fun he => h (hf he)
    simp [h, hne]

theorem share_pair (i : ι) (es : List (Exchange A)) : share i (es.map (Prod.mk i)) = es := by
  simp [share, List.filterMap_map]

end Share

end Assay.Script

import Assay.Proofs.Script.Runs

namespace Assay.Script

variable {Q : Type} {A : Q → Type} {α β σ : Type}

/-- A script played to its end, with all its exchanges. -/
def recorded (respond : Responder A σ) (s : Script A α) (now : Nat) (w : σ) :
    Option (List (Exchange A) × α × Nat × σ) :=
  (s.play respond now w).map fun last => (s.exchanges respond now w, last)

variable {respond : Responder A σ} {now : Nat} {w : σ}

@[simp]
theorem recorded_pure (a : α) :
    (pure a : Script A α).recorded respond now w = some ([], a, now, w) := rfl

theorem recorded_ask (q : Q) (next : A q → Script A α) :
    (ask q next).recorded respond now w = (respond q now w).bind fun answer =>
      ((next answer.2.1).recorded respond (now + answer.1) answer.2.2).map
        (Prod.map (⟨q, answer.2.1⟩ :: ·) id) := by
  simp only [recorded, play, exchanges]
  cases respond q now w with
  | none => rfl
  | some answer =>
    rw [Option.bind_some, Option.map_map]
    rfl

theorem recorded_bind (s : Script A α) (f : α → Script A β) :
    (s >>= f).recorded respond now w = (s.recorded respond now w).bind fun first =>
      ((f first.2.1).recorded respond first.2.2.1 first.2.2.2).map
        (Prod.map (first.1 ++ ·) id) := by
  induction s generalizing now w with
  | done a => exact Option.map_id'.symm
  | ask q next ih =>
    rw [ask_bind, recorded_ask, recorded_ask, Option.bind_assoc]
    congr 1
    funext answer
    rw [ih, Option.map_bind, Option.bind_map]
    congr 1
    funext first
    rw [Function.comp_apply, Option.map_map]
    rfl

theorem recorded_bind_eq_some {s : Script A α} {f : α → Script A β} {es : List (Exchange A)} {b : β}
    {later : Nat} {w' : σ} (h : (s >>= f).recorded respond now w = some (es, b, later, w')) :
    ∃ fs gs a middle w₁, s.recorded respond now w = some (fs, a, middle, w₁) ∧
      (f a).recorded respond middle w₁ = some (gs, b, later, w') ∧ es = fs ++ gs := by
  rw [recorded_bind, Option.bind_eq_some_iff] at h
  obtain ⟨⟨fs, a, middle, w₁⟩, hs, h⟩ := h
  obtain ⟨⟨gs, last⟩, hf, heq⟩ := Option.map_eq_some_iff.mp h
  cases heq
  exact ⟨fs, gs, a, middle, w₁, hs, hf, rfl⟩

theorem recorded_query_eq_some {q : Q} {es : List (Exchange A)} {r : A q} {later : Nat} {w' : σ}
    (h : (query q : Script A (A q)).recorded respond now w = some (es, r, later, w')) :
    ∃ delay, respond q now w = some (delay, r, w') ∧ es = [⟨q, r⟩] ∧ later = now + delay := by
  rw [query, recorded_ask, Option.bind_eq_some_iff] at h
  obtain ⟨⟨delay, a, w₁⟩, hq, h⟩ := h
  cases h
  exact ⟨delay, hq, rfl, rfl⟩

theorem le_of_recorded {s : Script A α} {es : List (Exchange A)} {a : α} {later : Nat} {w' : σ}
    (h : s.recorded respond now w = some (es, a, later, w')) : now ≤ later := by
  induction s generalizing now w es with
  | done b =>
    cases h
    exact Nat.le_refl _
  | ask q next ih =>
    obtain ⟨fs, gs, r, middle, w₁, hquery, hnext, -⟩ := recorded_bind_eq_some (s := query q) h
    obtain ⟨delay, -, -, rfl⟩ := recorded_query_eq_some hquery
    exact Nat.le_trans (Nat.le_add_right now delay) (ih r hnext)

theorem recorded_eq_some_iff {s : Script A α} {es : List (Exchange A)} {a : α} {later : Nat}
    {w' : σ} : s.recorded respond now w = some (es, a, later, w') ↔
      s.play respond now w = some (a, later, w') ∧ s.exchanges respond now w = es := by
  rw [recorded, Option.map_eq_some_iff]
  constructor
  · rintro ⟨last, hplay, heq⟩
    cases heq
    exact ⟨hplay, rfl⟩
  · rintro ⟨hplay, rfl⟩
    exact ⟨_, hplay, rfl⟩

theorem recorded_bind_of_recorded {s : Script A α} {f : α → Script A β} {es fs : List (Exchange A)}
    {a : α} {b : β} {middle later : Nat} {w₁ w₂ : σ}
    (h : s.recorded respond now w = some (es, a, middle, w₁))
    (g : (f a).recorded respond middle w₁ = some (fs, b, later, w₂)) :
    (s >>= f).recorded respond now w = some (es ++ fs, b, later, w₂) := by
  rw [recorded_bind, h, Option.bind_some, g]
  rfl

theorem play_bind_of_play {s : Script A α} {a : α} {later : Nat} {w' : σ}
    (h : s.play respond now w = some (a, later, w')) (f : α → Script A β) :
    (s >>= f).play respond now w = (f a).play respond later w' := by
  induction s generalizing now w with
  | done b =>
    cases h
    rfl
  | ask q next ih =>
    rw [ask_bind]
    simp only [play] at h ⊢
    cases hr : respond q now w with
    | none => simp [hr] at h
    | some answer =>
      simp only [hr] at h ⊢
      exact ih _ h

end Assay.Script

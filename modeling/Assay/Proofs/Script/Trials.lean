import Assay.Proofs.Script.Runs
import Assay.World

namespace Assay

theorem bind_eq_ok {ε α β : Type} {x : Except ε α} {f : α → Except ε β} {b : β} :
    x >>= f = .ok b ↔ ∃ a, x = .ok a ∧ f a = .ok b := by
  cases x with
  | ok a =>
    refine ⟨fun h => ⟨a, rfl, h⟩, fun ⟨_, ha, h⟩ => ?_⟩
    cases ha
    exact h
  | error e => exact ⟨nofun, nofun⟩

theorem map_eq_ok {ε α β : Type} {x : Except ε α} {f : α → β} {b : β} :
    x.map f = .ok b ↔ ∃ a, x = .ok a ∧ f a = b := by
  cases x with
  | ok a => simp [Except.map]
  | error e => simp [Except.map]

theorem toOption_eq_some {ε α : Type} {x : Except ε α} {a : α} :
    x.toOption = some a ↔ x = .ok a := by
  cases x with
  | ok b => simp [Except.toOption]
  | error e => simp [Except.toOption]

namespace Trial

open Script (Exchange runs_done)

variable {Q : Type} {A : Q → Type} {α β : Type} {es : List (Exchange A)}

theorem runs_except {x r : Except Error α}
    (h : (liftM x : ExceptT Error (Script A) α).run.Runs es r) : es = [] ∧ r = x := runs_done h

theorem runs_lift {s : Script A α} {r : Except Error α}
    (h : (liftM s : ExceptT Error (Script A) α).run.Runs es r) :
    ∃ a, r = .ok a ∧ s.Runs es a := by
  obtain ⟨fs, gs, a, hs, hdone, rfl⟩ := Script.runs_bind h
  obtain ⟨rfl, rfl⟩ := runs_done hdone
  rw [List.append_nil]
  exact ⟨a, rfl, hs⟩

/-- What an error may end goes on when its first part has come to a result. -/
theorem runs_bind {x : ExceptT Error (Script A) α} {f : α → ExceptT Error (Script A) β}
    {r : Except Error β} (h : (x >>= f).run.Runs es r) :
    (∃ e, r = .error e ∧ x.run.Runs es (.error e)) ∨
      ∃ fs gs a, x.run.Runs fs (.ok a) ∧ (f a).run.Runs gs r ∧ es = fs ++ gs := by
  obtain ⟨fs, gs, first, hx, hf, rfl⟩ := Script.runs_bind h
  cases first with
  | error e =>
    obtain ⟨rfl, rfl⟩ := runs_done hf
    rw [List.append_nil]
    exact .inl ⟨e, rfl, hx⟩
  | ok a => exact .inr ⟨fs, gs, a, hx, hf, rfl⟩

theorem runs_bind_ok {x : ExceptT Error (Script A) α} {f : α → ExceptT Error (Script A) β}
    {fs : List (Exchange A)} {a : α} {r : Except Error β} (hx : x.run.Runs es (.ok a))
    (hf : (f a).run.Runs fs r) : (x >>= f).run.Runs (es ++ fs) r := hx.bind hf

theorem runs_map {x : ExceptT Error (Script A) α} {r : Except Error α} (hx : x.run.Runs es r)
    (g : α → β) : (x >>= fun a => pure (g a)).run.Runs es (r.map g) := by
  rw [← List.append_nil es]
  cases r with
  | error e => exact hx.bind (.refl _)
  | ok a => exact hx.bind (.refl _)

end Trial

end Assay

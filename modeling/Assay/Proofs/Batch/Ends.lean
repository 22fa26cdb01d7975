import Assay.Proofs.Batch.Crew
import Mathlib.Logic.Hydra

namespace Assay

open Script (Exchange AsksOnly share)

variable {Q : Type} {A : Q → Type} {α : Type}

namespace Task

/-- A task goes on when it begins or gets an answer. -/
inductive Before : Task A α → Task A α → Prop
  | begun (s : Script A α) : Before (ofScript s) (waiting s)
  | answered (q : Q) (next : A q → Script A α) (r : A q) :
      Before (ofScript (next r)) (running (.ask q next))

theorem acc_ofScript (s : Script A α) : Acc Before (ofScript s) := by
  induction s with
  | done a => exact ⟨_, fun t h => by cases h⟩
  | ask q next ih =>
    refine ⟨_, fun t h => ?_⟩
    cases h with
    | answered q next r => exact ih r

theorem before_wf : WellFounded (Before (A := A) (α := α)) := by
  refine ⟨fun t => ?_⟩
  cases t with
  | waiting s =>
    refine ⟨_, fun t h => ?_⟩
    cases h with
    | begun s => exact acc_ofScript s
  | running s =>
    refine ⟨_, fun t h => ?_⟩
    cases h with
    | answered q next r => exact acc_ofScript (next r)
  | finished a => exact ⟨_, fun t h => by cases h⟩

theorem map_filterMap_result {ts : List (Task A α)} (h : ts.all fun t => t.result?.isSome) :
    (ts.filterMap result?).map finished = ts := by
  induction ts with
  | nil => rfl
  | cons t ts ih =>
    simp only [List.all_cons, Bool.and_eq_true] at h
    cases t with
    | finished a => rw [List.filterMap_cons_some (f := result?) rfl, List.map_cons, ih h.2]
    | waiting s => cases h.1
    | running s => cases h.1

end Task

namespace Crew

variable {slots : Nat} {scripts : List (Script A α)} {es : List (Nat × Exchange A)}
  {c d : Crew A α}

/-- When it is over, every script has run from beginning to end, each of them once. -/
theorem Sound.results_of_isOver (h : Sound slots scripts es c) (hover : c.isOver) :
    ∃ results, results.length = scripts.length ∧ c.ended.Perm results ∧
      ∀ (i : Nat) (s : Script A α) (a : α), scripts[i]? = some s → results[i]? = some a →
        s.Runs (share i es) a := by
  have hresults := Task.map_filterMap_result hover
  refine ⟨c.tasks.filterMap Task.result?, ?_, h.results, fun i s a hs ha => ?_⟩
  · rw [← h.length, ← List.length_map Task.finished, hresults]
  · refine h.stands i s (.finished a) hs ?_
    rw [← hresults, List.getElem?_map, ha]
    rfl

theorem Sound.isOver_of_nil (h : Sound slots [] es c) : c.isOver := by
  rw [isOver, List.eq_nil_of_length_eq_zero h.length]
  rfl

theorem Sound.exists_step (h : Sound slots scripts es c) (hslots : 0 < slots)
    (answered : ∀ s ∈ scripts, AsksOnly (fun q => Nonempty (A q)) s) (hover : c.isOver = false) :
    ∃ fs d, Step slots c fs d := by
  by_cases hrunning : ∃ t ∈ c.tasks, t.isRunning
  · obtain ⟨t, ht, hrun⟩ := hrunning
    obtain ⟨i, hi, rfl⟩ := List.mem_iff_getElem.mp ht
    have hs : i < scripts.length := h.length ▸ hi
    have hstands := h.stands i _ _ (List.getElem?_eq_getElem hs) (List.getElem?_eq_getElem hi)
    cases htask : c.tasks[i] with
    | waiting s => rw [htask] at hrun; cases hrun
    | finished a => rw [htask] at hrun; cases hrun
    | running s =>
      rw [htask] at hstands
      obtain ⟨hreach, hnot⟩ := hstands
      cases s with
      | done a => exact absurd rfl (hnot a)
      | ask q next =>
        cases (answered _ (List.getElem_mem hs)).left hreach with
        | ask here rest =>
          obtain ⟨r⟩ := here
          exact ⟨_, _, .answer (by rw [List.getElem?_eq_getElem hi, htask]) r⟩
  · obtain ⟨t, ht, hnone⟩ : ∃ t ∈ c.tasks, t.result?.isSome = false := by
      simpa [isOver] using hover
    have hfree : c.inFlight = 0 :=
      List.countP_eq_zero.mpr fun u hu hrun => hrunning ⟨u, hu, hrun⟩
    obtain ⟨i, hi, rfl⟩ := List.mem_iff_getElem.mp ht
    cases htask : c.tasks[i] with
    | waiting s =>
      exact ⟨_, _, .begin (by rw [List.getElem?_eq_getElem hi, htask]) (hfree ▸ hslots)⟩
    | running s => exact absurd ⟨_, ht, by rw [htask]; rfl⟩ hrunning
    | finished a => rw [htask] at hnone; cases hnone

theorem cutExpand_put {i : Nat} {t : Task A α} {s : Script A α} (h : c.tasks[i]? = some t)
    (hbefore : Task.Before (.ofScript s) t) :
    Relation.CutExpand Task.Before ((c.put i s).tasks : Multiset (Task A α)) c.tasks := by
  refine ⟨{.ofScript s}, t, by simpa using hbefore, ?_⟩
  rw [add_comm, add_comm (c.tasks : Multiset (Task A α)), Multiset.singleton_add,
    Multiset.singleton_add, Multiset.cons_coe, Multiset.cons_coe, Multiset.coe_eq_coe]
  exact put_perm h

/-- No group goes on forever, in whatever order its scripts take their steps. -/
theorem step_wf (slots : Nat) :
    WellFounded fun d c : Crew A α => ∃ es, Step slots c es d := by
  -- The tasks, as a multiset: a step puts for one of them one that comes after it.
  have hwf := InvImage.wf (fun c : Crew A α => (c.tasks : Multiset (Task A α)))
    (Task.before_wf (A := A) (α := α)).cutExpand
  refine Subrelation.wf (fun {d c} h => ?_) hwf
  obtain ⟨es, hstep⟩ := h
  cases hstep with
  | @begin i s task free => exact cutExpand_put task (.begun s)
  | @answer i q next task r => exact cutExpand_put task (.answered q next r)

end Crew

end Assay

import Assay.Libraries.BuiltIn
import Assay.Proofs.Runner.Report
import Assay.Rehearsal.World

namespace Assay

open Script (Exchange Rounds Stages)

/-- A world that answers every question that has an answer. -/
def Responder.Answers {σ : Type} (respond : Responder Query.Answer σ) : Prop :=
  ∀ q now w, q.HasAnswer → (respond q now w).isSome

section Reports

variable {r : Runner} {suite : Suite} {options : RunOptions}

theorem Script.Rounds.events {σ α : Type} {step : σ → α → Run σ} {P : α → List Event → Prop}
    {s t : σ} {as : List α} {ess : List (List (Exchange Query.Answer))}
    (h : Rounds step s as ess t) (hP : ∀ s a es t, (step s a).Runs es t → P a (eventsOf es)) :
    List.Forall₂ P as (ess.map eventsOf) :=
  List.forall₂_map_right_iff.mpr (h.forall₂ hP)

theorem runCases_report [Libraries] {cases : List Step} {s t : Tally × Context}
    {ess : List (List (Exchange Query.Answer))}
    (h : Stages (r.CaseCourse suite options) cases s ess t) :
    List.Forall₂ (CaseReport suite.name options.filter) cases (ess.map eventsOf) ∧
      t.1 = s.1 + Tally.ofEvents (ess.map eventsOf).flatten := by
  induction h with
  | nil s => exact ⟨.nil, rfl⟩
  | cons first rest ih =>
    obtain ⟨hcase, htally⟩ := first.report
    obtain ⟨hcases, htallies⟩ := ih
    refine ⟨.cons hcase hcases, ?_⟩
    rw [List.map_cons, List.flatten_cons, Tally.ofEvents_append, ← Tally.add_assoc, ← htally]
    exact htallies

theorem runSuite_report [Libraries] {ctx left : Context} {summary : Summary}
    {es : List (Exchange Query.Answer)}
    (h : (r.runSuite suite options ctx).Runs es (summary, left)) :
    SuiteReport suite options (eventsOf es) summary := by
  cases Runner.runs_runSuite_course h with
  | @intro start stop before groups after ctx₁ ctx₂ left tally hsetup _ hcases hteardown _ =>
    have hbefore := hsetup.events fun _ _ _ _ => SetupEntry.run_report
    have hafter := hteardown.events fun _ _ _ _ => Step.runTeardown_report
    obtain ⟨hgroups, htally⟩ := runCases_report hcases
    rw [Tally.zero_add] at htally
    simp only [eventsOf_cons, eventsOf_append, eventsOf_flatten, Query.event?]
    have hcount : Tally.ofEvents (.suiteStart suite.name suite.description suite.cases.length ::
        ((before.map eventsOf).flatten ++ ((groups.map eventsOf).flatten ++
          ((after.map eventsOf).flatten ++ [.suiteEnd suite.name tally.passed tally.failed
            tally.skipped (stop - start)])))) = tally := by
      rw [← List.singleton_append, Tally.ofEvents_append, Tally.ofEvents_append,
        Tally.ofEvents_append, Tally.ofEvents_append, tally_flatten_logs (fun _ _ h => h) hbefore,
        tally_flatten_logs (fun _ _ h => h.1) hafter, ← htally]
      change {} + ({} + (tally + ({} + {}))) = tally
      simp only [Tally.zero_add, Tally.add_zero]
    exact
      { shape := ⟨_, _, _, rfl, hbefore, hgroups, hafter⟩
        name := rfl
        passed := (congrArg Tally.passed hcount).symm
        failed := (congrArg Tally.failed hcount).symm
        skipped := (congrArg Tally.skipped hcount).symm
        total := by
          rw [← tally_flatten_cases hgroups, ← htally]
          rfl }

end Reports

/-- Every run of a suite gives a report of its shape, with the counts of its summary, whatever is
answered. Where no delay between attempts is too long, and the other questions are answered, the run
comes to its end. -/
theorem Runner.runSuite_events [Libraries] (r : Runner) (suite : Suite) (options : RunOptions)
    (ctx : Context) :
    (∀ es summary left, (r.runSuite suite options ctx).Runs es (summary, left) →
      SuiteReport suite options (eventsOf es) summary) ∧
    (r.Calm suite options → ∀ (σ : Type) (respond : Responder Query.Answer σ), respond.Answers →
      ∀ now w, ∃ summary left later w',
        (r.runSuite suite options ctx).play respond now w = some ((summary, left), later, w') ∧
        SuiteReport suite options
          (eventsOf ((r.runSuite suite options ctx).exchanges respond now w)) summary) := by
  refine ⟨fun es summary left h => runSuite_report h, ?_⟩
  intro calm σ respond answers now w
  have hplay := Script.play_isSome (runSuite_hasAnswer calm ctx) answers now w
  obtain ⟨⟨⟨summary, left⟩, later, w'⟩, h⟩ := Option.isSome_iff_exists.mp hplay
  exact ⟨summary, left, later, w', h, runSuite_report (Script.runs_of_play h)⟩

namespace Rehearsal

theorem World.respond_answers : Responder.Answers World.respond := by
  intro q now w h
  cases q with
  | sleepForever => exact h.elim
  | collect request => cases hw : w.collector <;> simp [World.respond, hw]
  | _ => rfl

def idleStep : Step := ⟨some "idle", none, none, none, [], false, none, false⟩

/-- A suite whose setup, second case and teardown fail. -/
def idleSuite : Suite :=
  ⟨"idle", none, false, [], some ⟨3, ⟨10⟩, some .linear, none⟩, none, none, [.step idleStep],
    [{ idleStep with skip := true }, idleStep], [{ idleStep with ignoreError := true }]⟩

def idleOptions : RunOptions := ⟨"", none, none, none, none⟩

def idleWorld : World := { queue := [], rules := [], collector := .fails "nobody" }

theorem idleSuite_calm {collects : Bool} {options : RunOptions} :
    Runner.Calm ⟨collects, none⟩ idleSuite options := by
  intro case hcase hskip p hp n hn hlast
  have hretry : case.retry = none := by
    rcases List.mem_cons.mp hcase with rfl | hcase
    · rfl
    · rw [List.mem_singleton.mp hcase]
      rfl
  simp only [Runner.policyFor, RetryPolicy.effective, hretry, idleSuite, Option.none_or,
    Option.some_or, Option.filter_eq_some_iff, Option.some.injEq] at hp
  rw [← hp.1]
  rfl

theorem runSuite_events_idle :
    Runner.Calm ⟨false, none⟩ idleSuite idleOptions ∧ Responder.Answers World.respond ∧
    ∃ summary left later w',
      (Runner.runSuite ⟨false, none⟩ idleSuite idleOptions .empty).play World.respond 0 idleWorld =
        some ((summary, left), later, w') ∧
      SuiteReport idleSuite idleOptions
        (eventsOf ((Runner.runSuite ⟨false, none⟩ idleSuite idleOptions .empty).exchanges
          World.respond 0 idleWorld)) summary := by
  exact ⟨idleSuite_calm, World.respond_answers,
    (Runner.runSuite_events _ _ _ _).2 idleSuite_calm _ _ World.respond_answers 0 idleWorld⟩

end Rehearsal

end Assay

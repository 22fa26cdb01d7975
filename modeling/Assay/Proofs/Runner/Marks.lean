import Assay.Proofs.Runner.Course
import Assay.Proofs.Runner.Suite

namespace Assay

open Script (Exchange)

/-- The step without its mark to be skipped. -/
def Step.unmarked (s : Step) : Step := { s with skip := false }

def SetupEntry.unmarked : SetupEntry → SetupEntry
  | .step s => .step s.unmarked
  | entry => entry

/-- The suite with the marks of its cases only. -/
def Suite.unmarkedAround (suite : Suite) : Suite :=
  { suite with
    setup := suite.setup.map SetupEntry.unmarked
    teardown := suite.teardown.map Step.unmarked }

theorem Script.each_map {Q : Type} {A : Q → Type} {α β σ : Type} {step : σ → β → Script A σ}
    (f : α → β) (s : σ) (as : List α) :
    each step s (as.map f) = each (fun s a => step s (f a)) s as := by
  induction as generalizing s with
  | nil => rfl
  | cons a as ih => exact congrArg (Script.bind (step s (f a))) (funext ih)

theorem SetupEntry.run_unmarked [Libraries] (suite : Suite) (settings : StepSettings)
    (ctx : Context) (entry : SetupEntry) :
    entry.unmarked.run suite settings ctx = entry.run suite settings ctx := by
  cases entry <;> rfl

theorem Step.runTeardown_unmarked [Libraries] (suite : Suite) (settings : StepSettings)
    (ctx : Context) (s : Step) :
    s.unmarked.runTeardown suite settings ctx = s.runTeardown suite settings ctx := rfl

namespace Runner

variable [Libraries] {r : Runner} {suite : Suite} {options : RunOptions}
  {es : List (Exchange Query.Answer)}

theorem CaseCourse.of_skip {case : Step} {s t : Tally × Context} (hskip : case.skip = true)
    (h : r.CaseCourse suite options case s es t) :
    es = [⟨.emit (.caseSkip suite.name case.displayName "marked skip"), ()⟩] ∧ t.2 = s.2 := by
  have hreason : case.skipReason options.filter = some "marked skip" := if_pos hskip
  cases h with
  | skipped why =>
    rw [hreason] at why
    cases why
    exact ⟨rfl, rfl⟩
  | passed runs | failed runs =>
    rw [hreason] at runs
    cases runs

theorem runSuite_unmarkedAround (r : Runner) (suite : Suite) (options : RunOptions)
    (ctx : Context) :
    r.runSuite suite.unmarkedAround options ctx = r.runSuite suite options ctx := by
  have hsetup : ∀ settings ctx,
      Script.each (fun ctx e => e.run suite settings ctx) ctx
          (suite.setup.map SetupEntry.unmarked) =
        Script.each (fun ctx e => e.run suite settings ctx) ctx suite.setup := by
    intro settings ctx
    simp only [Script.each_map, SetupEntry.run_unmarked]
  have hteardown : ∀ settings ctx,
      Script.each (fun ctx s => s.runTeardown suite settings ctx) ctx
          (suite.teardown.map Step.unmarked) =
        Script.each (fun ctx s => s.runTeardown suite settings ctx) ctx suite.teardown := by
    intro settings ctx
    simp only [Script.each_map, Step.runTeardown_unmarked]
  unfold runSuite
  refine congrArg (Script.bind _) (funext fun start => ?_)
  refine congrArg (Script.bind _) (funext fun _ => ?_)
  refine congr (congrArg Script.bind (hsetup _ _)) (funext fun ctx₁ => ?_)
  refine congrArg (Script.bind _) (funext fun state => ?_)
  exact congrArg (Script.bind · _) (hteardown _ _)

/-- Of the marks to be skipped only those of cases are heeded: in every run a marked case is
reported as skipped and nothing else is done for it. Marked setup and teardown steps are executed
as if they were not marked. -/
theorem skip_marks (r : Runner) (suite : Suite) (options : RunOptions) (ctx : Context) :
    (∀ es summary left, (r.runSuite suite options ctx).Runs es (summary, left) →
      r.SuiteCourse suite options ctx es summary left) ∧
    (∀ case ∈ suite.cases, case.skip = true → ∀ s es t, r.CaseCourse suite options case s es t →
      es = [⟨.emit (.caseSkip suite.name case.displayName "marked skip"), ()⟩] ∧ t.2 = s.2) ∧
    r.runSuite suite options ctx = r.runSuite suite.unmarkedAround options ctx :=
  ⟨fun _ _ _ h => runs_runSuite_course h, fun _ _ hskip _ _ _ h => h.of_skip hskip,
    (runSuite_unmarkedAround r suite options ctx).symm⟩

end Runner

namespace Rehearsal

def markedStep (command : String) : Step :=
  { idleStep with action := some (.exec ⟨command, none⟩), skip := true }

/-- A suite of which every step is marked to be skipped. -/
def markedSuite : Suite :=
  { idleSuite with
    setup := [.step (markedStep "seed")]
    cases := [markedStep "probe"]
    teardown := [markedStep "wipe"] }

def markedOptions : RunOptions := { idleOptions with container := some "app" }

/-- Every command succeeds. -/
def obligingWorld : World :=
  { queue := [], rules := [⟨"", ⟨"", "", 0⟩, 0, none⟩], collector := .fails "nobody" }

/-- The commands of the setup and of the teardown are run although all steps are marked. -/
theorem marked_steps_run :
    (∀ s ∈ [markedStep "seed", markedStep "probe", markedStep "wipe"], s.skip = true) ∧
    ((Runner.runSuite ⟨false, none⟩ markedSuite markedOptions .empty).play World.respond 0
      obligingWorld).map (fun x => x.2.2.calls.reverse.map Call.command) =
        some ["seed", "wipe"] := by
  decide +kernel

theorem skip_marks_marked :
    (markedStep "probe") ∈ markedSuite.cases ∧ (markedStep "probe").skip = true ∧
    (∃ es summary left,
      (Runner.runSuite ⟨false, none⟩ markedSuite markedOptions .empty).Runs es (summary, left) ∧
      Runner.SuiteCourse ⟨false, none⟩ markedSuite markedOptions .empty es summary left) ∧
    ∃ es t, Runner.CaseCourse ⟨false, none⟩ markedSuite markedOptions (markedStep "probe")
        ({}, .empty) es t ∧
      es = [⟨.emit (.caseSkip "idle" "idle" "marked skip"), ()⟩] ∧ t.2 = .empty := by
  obtain ⟨hcourse, hcases, -⟩ :=
    Runner.skip_marks ⟨false, none⟩ markedSuite markedOptions .empty
  have hmem : markedStep "probe" ∈ markedSuite.cases := List.mem_singleton_self _
  have hskip : (markedStep "probe").skip = true := rfl
  have hruns : ((Runner.runSuite ⟨false, none⟩ markedSuite markedOptions .empty).play
      World.respond 0 obligingWorld).isSome := by decide +kernel
  obtain ⟨⟨⟨summary, left⟩, later, w⟩, hplay⟩ := Option.isSome_iff_exists.mp hruns
  have hrun := Script.runs_of_play hplay
  have hcase : Runner.CaseCourse ⟨false, none⟩ markedSuite markedOptions (markedStep "probe")
      ({}, .empty) [⟨.emit (.caseSkip "idle" "idle" "marked skip"), ()⟩]
      ({ skipped := 1 }, .empty) := .skipped rfl
  exact ⟨hmem, hskip, ⟨_, summary, left, hrun, hcourse _ _ _ hrun⟩,
    _, _, hcase, hcases _ hmem hskip _ _ _ hcase⟩

end Rehearsal

end Assay

import Assay.Proofs.Runner.Course
import Assay.Proofs.Runner.Suite
import Assay.Proofs.Runner.Trails

namespace Assay

open Script (Exchange)

namespace SuiteAccount

def withoutDiagnostics (a : SuiteAccount) : SuiteAccount :=
  { a with events := a.events.map Event.withoutDiagnostics }

/-- An account without what depends on when the cases are run. -/
def undated (a : SuiteAccount) : SuiteAccount :=
  { a with summary := a.summary.timeless, events := a.events.map Event.undated }

end SuiteAccount

/-- The account of a suite among collaborators and, perhaps, somebody who collects diagnostics. -/
def Collaborators.account [Libraries] {σ κ : Type} (c : Collaborators σ) (d : Option (Examiner κ))
    (retry : Option RetryPolicy) (suite : Suite) (options : RunOptions) (ctx : Context)
    (now : Nat) (w : σ) (k : κ) : Option SuiteAccount :=
  Runner.account ⟨d.isSome, retry⟩ suite options ctx (c.world d) now (w, k)

section Accounts

variable {σ κ ν : Type} {retry : Option RetryPolicy} {suite : Suite} {options : RunOptions}
  {ctx : Context}

/-- Two accounts that agree but for times, and agree in these too if nobody takes any. -/
def SuiteAccount.Agrees (instant : Prop) (a b : SuiteAccount) : Prop :=
  a.withoutDiagnostics.undated = b.withoutDiagnostics.undated ∧
    (instant → a.withoutDiagnostics = b.withoutDiagnostics)

theorem account_agrees [Libraries] (c : Collaborators σ) (d : Option (Examiner κ)) (now : Nat)
    (w : σ) (k : κ) (v : ν) : Option.Rel (SuiteAccount.Agrees (∀ collect ∈ d, collect.Instant))
      (c.account (none : Option (Examiner ν)) retry suite options ctx now w v)
      (c.account d retry suite options ctx now w k) := by
  have htrails : Run.Trails d.isSome _ 0 _ _ := Run.trails_runSuite retry suite options ctx
  refine optionRel_map (htrails.recorded c now w k v) ?_
  rintro ⟨es, ⟨summary, left⟩, _⟩ ⟨fs, ⟨summary', left'⟩, _⟩ h
  obtain ⟨later, -, hinstant, ⟨hsummary, hleft, hprompt⟩, hevents⟩ := h.later
  have hcalls : callsOf es = callsOf fs := h.calls
  have hundated : ((eventsOf es).map Event.withoutDiagnostics).map Event.undated =
      ((eventsOf fs).map Event.withoutDiagnostics).map Event.undated := by
    rw [List.map_map, List.map_map]
    exact h.events
  obtain rfl : left = left' := hleft
  constructor
  · simp only [SuiteAccount.withoutDiagnostics, SuiteAccount.undated, hcalls, hundated]
    exact congrArg (SuiteAccount.mk · left _ _) hsummary
  · intro instant
    obtain rfl : later = 0 := hinstant instant
    obtain rfl : summary = summary' := hprompt rfl
    simp only [SuiteAccount.withoutDiagnostics, hcalls, hevents rfl]

theorem map_eq_of_optionRel {α β γ : Type} {R : α → β → Prop} {f : α → γ} {g : β → γ}
    {x : Option α} {y : Option β} (h : Option.Rel R x y) (hfg : ∀ a b, R a b → f a = g b) :
    x.map f = y.map g := by
  cases h with
  | some h => exact congrArg some (hfg _ _ h)
  | none => rfl

/-- Whoever collects diagnostics, if anybody, all else is the same but for times. -/
theorem account_undated [Libraries] {κ' : Type} (c : Collaborators σ) (d : Option (Examiner κ))
    (d' : Option (Examiner κ')) (now : Nat) (w : σ) (k : κ) (k' : κ') :
    ((c.account d retry suite options ctx now w k).map fun a => a.withoutDiagnostics.undated) =
      (c.account d' retry suite options ctx now w k').map fun a =>
        a.withoutDiagnostics.undated :=
  (map_eq_of_optionRel (account_agrees c d now w k ()) fun _ _ h => h.1).symm.trans
    (map_eq_of_optionRel (account_agrees c d' now w k' ()) fun _ _ h => h.1)

theorem account_instant [Libraries] {κ' : Type} (c : Collaborators σ) {d : Option (Examiner κ)}
    {d' : Option (Examiner κ')} (instant : ∀ collect ∈ d, collect.Instant)
    (instant' : ∀ collect ∈ d', collect.Instant) (now : Nat) (w : σ) (k : κ) (k' : κ') :
    (c.account d retry suite options ctx now w k).map SuiteAccount.withoutDiagnostics =
      (c.account d' retry suite options ctx now w k').map SuiteAccount.withoutDiagnostics :=
  (map_eq_of_optionRel (account_agrees c d now w k ()) fun _ _ h => h.2 instant).symm.trans
    (map_eq_of_optionRel (account_agrees c d' now w k' ()) fun _ _ h => h.2 instant')

theorem Collaborators.world_answers (c : Collaborators σ) (collect : Examiner κ) :
    Responder.Answers (c.world (some collect)) := by
  rintro q now ⟨w, k⟩ h
  cases q with
  | sleepForever => exact h.elim
  | _ => rfl

/-- A suite comes to its end also where nobody collects diagnostics, so nobody is asked there. -/
theorem account_isSome [Libraries] (calm : Runner.Calm ⟨false, retry⟩ suite options)
    (c : Collaborators σ) (d : Option (Examiner κ)) (now : Nat) (w : σ) (k : κ) :
    (c.account d retry suite options ctx now w k).isSome := by
  let collect : Examiner κ := fun _ _ k => (0, .error (.remote ""), k)
  have hcalm : Runner.Calm ⟨true, retry⟩ suite options := calm
  have hplay := Script.play_isSome (Runner.runSuite_hasAnswer hcalm ctx)
    (c.world_answers collect) now (w, k)
  have hcollect : (c.account (some collect) retry suite options ctx now w k).isSome := by
    simpa [Collaborators.account, Runner.account, Script.recorded] using hplay
  have hundated : (c.account d retry suite options ctx now w k).map _ =
      (c.account (some collect) retry suite options ctx now w k).map _ :=
    account_undated c d (some collect) now w k k
  rw [← Option.isSome_map, hundated, Option.isSome_map, hcollect]

end Accounts

/-- Diagnostics do not interfere: with collaborators who do not look at the time it makes no
difference who collects them, if anybody does, but for the diagnostics in the reports, and the time
that is spent on them. They are asked for when a case has failed for good, once and before its
report, and only if they are wanted. -/
theorem Runner.diagnostics_inert [Libraries] (retry : Option RetryPolicy) (suite : Suite)
    (options : RunOptions) (ctx : Context) :
    (∀ (σ κ κ' : Type) (c : Collaborators σ) (d : Option (Examiner κ)) (d' : Option (Examiner κ'))
      (now : Nat) (w : σ) (k : κ) (k' : κ'),
      ((c.account d retry suite options ctx now w k).map fun a => a.withoutDiagnostics.undated) =
        ((c.account d' retry suite options ctx now w k').map fun a =>
          a.withoutDiagnostics.undated) ∧
      ((∀ collect ∈ d, collect.Instant) → (∀ collect ∈ d', collect.Instant) →
        (c.account d retry suite options ctx now w k).map SuiteAccount.withoutDiagnostics =
          (c.account d' retry suite options ctx now w k').map SuiteAccount.withoutDiagnostics) ∧
      (Runner.Calm ⟨false, retry⟩ suite options →
        (c.account d retry suite options ctx now w k).isSome)) ∧
    ∀ collects es summary left,
      (runSuite ⟨collects, retry⟩ suite options ctx).Runs es (summary, left) →
        SuiteCourse ⟨collects, retry⟩ suite options ctx es summary left ∧
          Asks ⟨collects, retry⟩ options summary.failed es := by
  constructor
  · intro σ κ κ' c d d' now w k k'
    refine ⟨account_undated c d d' now w k k', ?_, ?_⟩
    · exact fun instant instant' => account_instant c instant instant' now w k k'
    · exact fun calm => account_isSome calm c d now w k
  · intro collects es summary left h
    have hcourse := runs_runSuite_course h
    exact ⟨hcourse, hcourse.asks⟩

namespace Rehearsal

/-- Nobody is there to do what is asked. -/
def deserted : Collaborators Unit
  | .exec .., _, s => (0, .error (.remote "nobody"), s)
  | .send .., _, s => (0, .unreachable, s)
  | .connect .., _, s => (0, false, s)

def reporting : Examiner Unit := fun _ _ k => (0, .ok .empty, k)

def refusing : Examiner Unit := fun _ _ k => (0, .error (.remote "nobody"), k)

def curiousOptions : RunOptions := { idleOptions with diagnostics := some ⟨["app"], [], none⟩ }

theorem diagnostics_inert_curious :
    Runner.Calm ⟨false, none⟩ idleSuite curiousOptions ∧
    (∀ collect ∈ some reporting, collect.Instant) ∧
    (∀ collect ∈ some refusing, collect.Instant) ∧
    ((deserted.account (some reporting) none idleSuite curiousOptions .empty 0 () ()).map
        SuiteAccount.withoutDiagnostics =
      (deserted.account (some refusing) none idleSuite curiousOptions .empty 0 () ()).map
        SuiteAccount.withoutDiagnostics) ∧
    (deserted.account (some reporting) none idleSuite curiousOptions .empty 0 () ()).isSome ∧
    ∃ es summary left,
      (Runner.runSuite ⟨true, none⟩ idleSuite curiousOptions .empty).Runs es (summary, left) ∧
        Runner.SuiteCourse ⟨true, none⟩ idleSuite curiousOptions .empty es summary left ∧
        Runner.Asks ⟨true, none⟩ curiousOptions summary.failed es ∧ summary.failed = 1 := by
  have reports : ∀ collect ∈ some reporting, collect.Instant := by
    rintro _ ⟨⟩ _ _ _
    rfl
  have refuses : ∀ collect ∈ some refusing, collect.Instant := by
    rintro _ ⟨⟩ _ _ _
    rfl
  obtain ⟨hsame, hcourse⟩ := Runner.diagnostics_inert none idleSuite curiousOptions .empty
  obtain ⟨-, hinstant, hends⟩ :=
    hsame Unit Unit Unit deserted (some reporting) (some refusing) 0 () () ()
  have hfailed : ((Runner.runSuite ⟨true, none⟩ idleSuite curiousOptions .empty).play
      (deserted.world (some reporting)) 0 ((), ())).map (fun x => x.1.1.failed) = some 1 := by
    decide +kernel
  obtain ⟨⟨⟨summary, left⟩, later, w⟩, hplay, hone⟩ := Option.map_eq_some_iff.mp hfailed
  have hruns := Script.runs_of_play hplay
  obtain ⟨course, asks⟩ := hcourse true _ summary left hruns
  exact ⟨idleSuite_calm, reports, refuses, hinstant reports refuses, hends idleSuite_calm,
    _, summary, left, hruns, course, asks, hone⟩

end Rehearsal

end Assay

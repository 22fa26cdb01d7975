import Assay.Proofs.Runner.Questions

namespace Assay

open Script (Exchange AsksOnly Rounds Stages asksOnly_each runs_bind runs_done runs_each
  runs_query_bind)

/-- What a question asks somebody to find out about a failure. -/
def Query.request? : Query → Option DiagnosticsRequest
  | .collect request => some request
  | _ => none

/-- The diagnostics that are asked for in some exchanges, in order. -/
def requestsOf (es : List (Exchange Query.Answer)) : List DiagnosticsRequest :=
  es.filterMap fun e => e.1.request?

@[simp]
theorem requestsOf_append (es fs : List (Exchange Query.Answer)) :
    requestsOf (es ++ fs) = requestsOf es ++ requestsOf fs := List.filterMap_append

@[simp]
theorem requestsOf_nil : requestsOf [] = [] := rfl

@[simp]
theorem requestsOf_cons (e : Exchange Query.Answer) (es : List (Exchange Query.Answer)) :
    requestsOf (e :: es) = e.1.request?.toList ++ requestsOf es := by
  simp only [requestsOf, List.filterMap_cons]
  cases e.1.request? <;> rfl

theorem requestsOf_eq_nil {α : Type} {s : Run α} {es : List (Exchange Query.Answer)} {a : α}
    (h : AsksOnly (fun q => q.request? = none) s) (hs : s.Runs es a) : requestsOf es = [] :=
  List.filterMap_eq_nil_iff.mpr (h.of_mem hs)

theorem Query.IsErrand.request? {q : Query} (h : q.IsErrand) : q.request? = none := by
  cases q with
  | collect request => exact h.elim
  | _ => rfl

namespace Runner

/-- Somebody collects diagnostics, and the options ask for something. -/
def Wants (r : Runner) (options : RunOptions) (request : DiagnosticsRequest) : Prop :=
  r.collects = true ∧ options.diagnostics = some request ∧ request.isEmpty = false

/-- What is exchanged to find out about a failure, with what is found. -/
inductive Diagnosis (r : Runner) (options : RunOptions) :
    List (Exchange Query.Answer) → Option DiagnosticsReport → Prop
  | unwanted (h : ∀ request, ¬ r.Wants options request) : Diagnosis r options [] none
  | found {request : DiagnosticsRequest} {report : DiagnosticsReport}
      (h : r.Wants options request) :
      Diagnosis r options [⟨.collect request, .ok report⟩] (some report)
  | failed {request : DiagnosticsRequest} {e : Error} (h : r.Wants options request) :
      Diagnosis r options [⟨.collect request, .error e⟩] none

/-- How a case goes: it is skipped, or it is tried, and diagnostics are collected when it has
failed for good. -/
inductive CaseCourse [Libraries] (r : Runner) (suite : Suite) (options : RunOptions) (case : Step) :
    Tally × Context → List (Exchange Query.Answer) → Tally × Context → Prop
  | skipped {tally : Tally} {ctx : Context} {reason : String}
      (why : case.skipReason options.filter = some reason) :
      CaseCourse r suite options case (tally, ctx)
        [⟨.emit (.caseSkip suite.name case.displayName reason), ()⟩]
        ({ tally with skipped := tally.skipped + 1 }, ctx)
  | passed {tally : Tally} {ctx left : Context} {start stop : Nat}
      {own : List (Exchange Query.Answer)} {attempts : Option (List Attempt)}
      (runs : case.skipReason options.filter = none)
      (tried : (r.tryCase suite (suite.settings options) case ctx).Runs own
        ((none, attempts), left))
      (unasked : requestsOf own = []) :
      CaseCourse r suite options case (tally, ctx)
        (⟨.emit (.caseStart suite.name case.displayName), ()⟩ :: ⟨.clock, start⟩ :: (own ++
          [⟨.clock, stop⟩,
            ⟨.emit (.casePass suite.name case.displayName (stop - start) attempts), ()⟩]))
        ({ tally with passed := tally.passed + 1 }, left)
  | failed {tally : Tally} {ctx left : Context} {start stop : Nat}
      {own asked : List (Exchange Query.Answer)} {attempts : Option (List Attempt)}
      {error : String} {report : Option DiagnosticsReport}
      (runs : case.skipReason options.filter = none)
      (tried : (r.tryCase suite (suite.settings options) case ctx).Runs own
        ((some error, attempts), left))
      (unasked : requestsOf own = []) (diagnosis : r.Diagnosis options asked report) :
      CaseCourse r suite options case (tally, ctx)
        (⟨.emit (.caseStart suite.name case.displayName), ()⟩ :: ⟨.clock, start⟩ :: (own ++
          ⟨.clock, stop⟩ :: (asked ++
            [⟨.emit (.caseFail suite.name case.displayName (stop - start) error report attempts),
              ()⟩])))
        ({ tally with failed := tally.failed + 1 }, left)

/-- How a suite goes: its setup, the course of each case, and its teardown, between the exchanges
that tell its start and its end. Only cases have diagnostics collected. -/
inductive SuiteCourse [Libraries] (r : Runner) (suite : Suite) (options : RunOptions)
    (ctx : Context) :
    List (Exchange Query.Answer) → Summary → Context → Prop
  | intro {start stop : Nat} {before groups after : List (List (Exchange Query.Answer))}
      {ctx₁ ctx₂ left : Context} {tally : Tally}
      (setup : Rounds (fun ctx e => e.run suite (suite.settings options) ctx)
        (ctx.defineAll suite.vars) suite.setup before ctx₁)
      (setupUnasked : requestsOf before.flatten = [])
      (cases : Stages (r.CaseCourse suite options) suite.cases ({}, ctx₁) groups (tally, ctx₂))
      (teardown : Rounds (fun ctx s => s.runTeardown suite (suite.settings options) ctx) ctx₂
        suite.teardown after left)
      (teardownUnasked : requestsOf after.flatten = []) :
      SuiteCourse r suite options ctx
        (⟨.clock, start⟩ ::
          ⟨.emit (.suiteStart suite.name suite.description suite.cases.length), ()⟩ ::
          (before.flatten ++ (groups.flatten ++ (after.flatten ++
            [⟨.clock, stop⟩, ⟨.emit (.suiteEnd suite.name tally.passed tally.failed tally.skipped
              (stop - start)), ()⟩]))))
        ⟨suite.name, tally.passed, tally.failed, tally.skipped, stop - start⟩ left

variable {r : Runner} {suite : Suite} {options : RunOptions} {ctx left : Context}
  {es : List (Exchange Query.Answer)}

theorem runs_diagnose {report : Option DiagnosticsReport}
    (h : (r.diagnose options).Runs es report) : r.Diagnosis options es report := by
  unfold diagnose at h
  cases hwanted : if r.collects then options.diagnostics.filter (!·.isEmpty) else none with
  | none =>
    simp only [hwanted] at h
    obtain ⟨rfl, rfl⟩ := runs_done h
    refine .unwanted fun request wants => ?_
    obtain ⟨hcollects, hrequest, hfull⟩ := wants
    simp [hcollects, hrequest, Option.filter, hfull] at hwanted
  | some request =>
    have wants : r.Wants options request := by
      simpa [Wants, Option.ite_none_right_eq_some, Option.filter_eq_some_iff] using hwanted
    simp only [hwanted] at h
    obtain ⟨report, fs, hdone, rfl⟩ := runs_query_bind h
    cases report with
    | ok report =>
      obtain ⟨rfl, rfl⟩ := runs_done hdone
      exact .found wants
    | error e =>
      obtain ⟨rfl, rfl⟩ := runs_done hdone
      exact .failed wants

theorem tryCase_unasked [Libraries] {settings : StepSettings} {case : Step}
    {result : Option String × Option (List Attempt)}
    (h : (r.tryCase suite settings case ctx).Runs es (result, left)) : requestsOf es = [] := by
  refine requestsOf_eq_nil (r.tryCase_asksOnly suite settings case ctx
    (fun q hq => hq.request?) rfl fun p _ n _ _ => ?_) h
  exact p.pause_asksOnly (P := fun q => q.request? = none) (fun _ => rfl) rfl n

theorem runs_runCase_course [Libraries] {case : Step} {s t : Tally × Context}
    (h : (r.runCase suite options (suite.settings options) s case).Runs es t) :
    r.CaseCourse suite options case s es t := by
  obtain ⟨tally, ctx⟩ := s
  simp only [runCase] at h
  cases hskip : case.skipReason options.filter with
  | some reason =>
    simp only [hskip] at h
    obtain ⟨⟨⟩, told, hdone, rfl⟩ := runs_query_bind h
    obtain ⟨rfl, rfl⟩ := runs_done hdone
    exact .skipped hskip
  | none =>
    simp only [hskip] at h
    obtain ⟨⟨⟩, begun, hbegun, rfl⟩ := runs_query_bind h
    obtain ⟨start, tried, htried, rfl⟩ := runs_query_bind hbegun
    obtain ⟨own, ended, ⟨⟨error, attempts⟩, left⟩, hown, hended, rfl⟩ := runs_bind htried
    obtain ⟨stop, judged, hjudged, rfl⟩ := runs_query_bind hended
    have unasked := tryCase_unasked hown
    cases error with
    | none =>
      obtain ⟨⟨⟩, told, hdone, rfl⟩ := runs_query_bind hjudged
      obtain ⟨rfl, rfl⟩ := runs_done hdone
      exact .passed hskip hown unasked
    | some e =>
      obtain ⟨asked, told, report, hasked, htold, rfl⟩ := runs_bind hjudged
      obtain ⟨⟨⟩, rest, hdone, rfl⟩ := runs_query_bind htold
      obtain ⟨rfl, rfl⟩ := runs_done hdone
      exact .failed hskip hown unasked (runs_diagnose hasked)

theorem runs_runSuite_course [Libraries] {summary : Summary}
    (h : (r.runSuite suite options ctx).Runs es (summary, left)) :
    r.SuiteCourse suite options ctx es summary left := by
  unfold runSuite at h
  obtain ⟨start, begun, hbegun, rfl⟩ := runs_query_bind h
  obtain ⟨⟨⟩, opened, hopened, rfl⟩ := runs_query_bind hbegun
  obtain ⟨own₁, tried, ctx₁, hown₁, htried, rfl⟩ := runs_bind hopened
  obtain ⟨own₂, ended, ⟨tally, ctx₂⟩, hown₂, hended, rfl⟩ := runs_bind htried
  obtain ⟨own₃, closed, ctx₃, hown₃, hclosed, rfl⟩ := runs_bind hended
  obtain ⟨stop, told, htold, rfl⟩ := runs_query_bind hclosed
  obtain ⟨⟨⟩, rest, hdone, rfl⟩ := runs_query_bind htold
  obtain ⟨rfl, hpair⟩ := runs_done hdone
  obtain ⟨rfl, rfl⟩ := Prod.mk.inj hpair
  have hsetup : requestsOf own₁ = [] := by
    refine requestsOf_eq_nil (asksOnly_each _ fun ctx entry _ => ?_) hown₁
    exact entry.run_asksOnly (fun q hq => hq.request?) rfl (fun _ _ => rfl) _ ctx
  have hteardown : requestsOf own₃ = [] := by
    refine requestsOf_eq_nil (asksOnly_each _ fun ctx step _ => ?_) hown₃
    exact step.runTeardown_asksOnly (fun q hq => hq.request?) (fun _ _ => rfl) _ ctx
  obtain ⟨before, hbefore, rfl⟩ := runs_each hown₁
  obtain ⟨groups, hgroups, rfl⟩ := runs_each hown₂
  obtain ⟨after, hafter, rfl⟩ := runs_each hown₃
  exact .intro hbefore hsetup (hgroups.stages fun _ _ _ _ => runs_runCase_course) hafter hteardown

/-- Diagnostics are asked for so many times, if they are wanted at all. -/
def Asks (r : Runner) (options : RunOptions) (times : Nat) (es : List (Exchange Query.Answer)) :
    Prop :=
  (∀ request, r.Wants options request → requestsOf es = List.replicate times request) ∧
    ((∀ request, ¬ r.Wants options request) → requestsOf es = [])

theorem asks_zero (h : requestsOf es = []) : r.Asks options 0 es :=
  ⟨fun _ _ => h, fun _ => h⟩

theorem Asks.append {m n : Nat} {fs : List (Exchange Query.Answer)} (h : r.Asks options m es)
    (g : r.Asks options n fs) : r.Asks options (m + n) (es ++ fs) := by
  constructor
  · intro request hwants
    rw [requestsOf_append, h.1 request hwants, g.1 request hwants, List.replicate_append_replicate]
  · intro hnone
    rw [requestsOf_append, h.2 hnone, g.2 hnone]
    rfl

theorem Diagnosis.asks {asked : List (Exchange Query.Answer)} {report : Option DiagnosticsReport}
    (h : r.Diagnosis options asked report) : r.Asks options 1 asked := by
  have hunique : ∀ request request', r.Wants options request → r.Wants options request' →
      request = request' := by
    intro request request' h h'
    exact Option.some.inj (h.2.1.symm.trans h'.2.1)
  cases h with
  | unwanted h => exact ⟨fun request hwants => absurd hwants (h request), fun _ => rfl⟩
  | found h | failed h =>
    refine ⟨fun request hwants => ?_, fun hnone => absurd h (hnone _)⟩
    rw [hunique request _ hwants h]
    rfl

theorem Asks.of_eq {n : Nat} {fs : List (Exchange Query.Answer)} (h : r.Asks options n fs)
    (heq : requestsOf es = requestsOf fs) : r.Asks options n es := by
  unfold Asks
  rwa [heq]

variable [Libraries]

/-- A case has diagnostics asked for once if it counts as failed, and otherwise never. -/
theorem CaseCourse.asks {case : Step} {s t : Tally × Context}
    (h : r.CaseCourse suite options case s es t) :
    ∃ n, t.1.failed = s.1.failed + n ∧ r.Asks options n es := by
  cases h with
  | skipped why => exact ⟨0, rfl, asks_zero rfl⟩
  | passed runs tried unasked => exact ⟨0, rfl, asks_zero (by simp [Query.request?, unasked])⟩
  | failed runs tried unasked diagnosis =>
    exact ⟨1, rfl, diagnosis.asks.of_eq (by simp [Query.request?, unasked])⟩

theorem stages_asks {cases : List Step} {s t : Tally × Context}
    {groups : List (List (Exchange Query.Answer))}
    (h : Stages (r.CaseCourse suite options) cases s groups t) :
    ∃ n, t.1.failed = s.1.failed + n ∧ r.Asks options n groups.flatten := by
  induction h with
  | nil s => exact ⟨0, rfl, asks_zero rfl⟩
  | cons first rest ih =>
    obtain ⟨m, hm, hfirst⟩ := first.asks
    obtain ⟨n, hn, hrest⟩ := ih
    exact ⟨m + n, by omega, hfirst.append hrest⟩

theorem SuiteCourse.asks {summary : Summary} (h : r.SuiteCourse suite options ctx es summary left) :
    r.Asks options summary.failed es := by
  cases h with
  | @intro start stop before groups after ctx₁ ctx₂ left tally setup setupUnasked cases teardown
      teardownUnasked =>
    obtain ⟨n, hn, hcases⟩ := stages_asks cases
    obtain rfl : tally.failed = n := by simpa using hn
    exact hcases.of_eq (by simp [Query.request?, setupUnasked, teardownUnasked])

end Runner

end Assay

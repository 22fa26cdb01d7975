import Assay.Proofs.Probe.Transaction
import Assay.Proofs.Retry.History

namespace Assay

open Script (AsksOnly Exchange Stages runs_bind runs_done)

/-- What is asked beside the steps: times, reports, diagnostics and waits. -/
def Query.IsAside : Query → Prop
  | .sleep _ | .clock | .emit _ | .collect _ => True
  | _ => False

/-- One execution of a step: the context it starts from, what it exchanges, and how it comes out. -/
structure Execution [Libraries] where
  step : Step
  before : Context
  exchanges : List (Exchange Query.Answer)
  result : Except Error (List String × Context)

namespace Execution

variable [Libraries]

def after (x : Execution) : Context := Step.contextAfter x.before x.result

def error (x : Execution) : Option String := Step.failureText x.result

def Runs (settings : StepSettings) (x : Execution) : Prop :=
  (x.step.execute settings x.before).run.Runs x.exchanges x.result

theorem Runs.grows {settings : StepSettings} {x : Execution} (h : x.Runs settings) :
    x.before.Grows x.after := by
  rcases Step.execute_cases h with ⟨e, hresult⟩ | ⟨failed, -, hresult⟩ |
    ⟨q, filled, response, failed, -, -, -, hresult⟩
  · simp only [after, hresult, Step.contextAfter]
    exact .refl x.before
  · simp only [after, hresult, Step.contextAfter]
    exact .refl x.before
  · simp only [after, hresult, Step.contextAfter]
    exact x.before.save_grows response.body x.step.save

end Execution

/-- Executions on one context: each starts from what the one before it left, and between them
there are only such exchanges. -/
inductive Thread [Libraries] (settings : StepSettings) (aside : Query → Prop) :
    Context → List Execution → List (Exchange Query.Answer) → Context → Prop
  | nil (ctx : Context) : Thread settings aside ctx [] [] ctx
  | aside {ctx left : Context} {xs : List Execution} {e : Exchange Query.Answer}
      {es : List (Exchange Query.Answer)} (here : aside e.1)
      (rest : Thread settings aside ctx xs es left) : Thread settings aside ctx xs (e :: es) left
  | execution {left : Context} {x : Execution} {xs : List Execution}
      {es : List (Exchange Query.Answer)} (here : x.Runs settings)
      (rest : Thread settings aside x.after xs es left) :
      Thread settings aside x.before (x :: xs) (x.exchanges ++ es) left

namespace Thread

variable [Libraries] {settings : StepSettings} {aside : Query → Prop} {ctx middle left : Context}
  {xs ys : List Execution} {es fs : List (Exchange Query.Answer)}

theorem append (h : Thread settings aside ctx xs es middle)
    (g : Thread settings aside middle ys fs left) :
    Thread settings aside ctx (xs ++ ys) (es ++ fs) left := by
  induction h with
  | nil ctx => exact g
  | aside here rest ih => exact .aside here (ih g)
  | @execution left x xs es here rest ih =>
    rw [List.append_assoc]
    exact .execution here (ih g)

theorem mono {wider : Query → Prop} (h : Thread settings aside ctx xs es left)
    (hwider : ∀ q, aside q → wider q) : Thread settings wider ctx xs es left := by
  induction h with
  | nil ctx => exact .nil ctx
  | aside here rest ih => exact .aside (hwider _ here) ih
  | execution here rest ih => exact .execution here ih

theorem of_asides (ctx : Context) (h : ∀ e ∈ es, aside e.1) :
    Thread settings aside ctx [] es ctx := by
  induction es with
  | nil => exact .nil ctx
  | cons e es ih =>
    have hrest : ∀ e ∈ es, aside e.1 := fun e he => h e (List.mem_cons_of_mem _ he)
    exact .aside (h e List.mem_cons_self) (ih hrest)

theorem of_asksOnly {α : Type} {s : Run α} {a : α} (ctx : Context) (hs : AsksOnly aside s)
    (h : s.Runs es a) : Thread settings aside ctx [] es ctx :=
  of_asides ctx (hs.of_mem h)

theorem append_asides (h : Thread settings aside ctx xs es left) (hfs : ∀ e ∈ fs, aside e.1) :
    Thread settings aside ctx xs (es ++ fs) left := by
  have happend := h.append (of_asides left hfs)
  rwa [List.append_nil] at happend

theorem grows (h : Thread settings aside ctx xs es left) :
    ctx.Grows left ∧ ∀ x ∈ xs, ctx.Grows x.before ∧ x.before.Grows x.after := by
  induction h with
  | nil ctx => exact ⟨.refl ctx, by simp⟩
  | aside here rest ih => exact ih
  | @execution left x xs es here rest ih =>
    refine ⟨here.grows.trans ih.1, fun y hy => ?_⟩
    rcases List.mem_cons.mp hy with rfl | hy
    · exact ⟨.refl _, here.grows⟩
    · obtain ⟨hbefore, hafter⟩ := ih.2 y hy
      exact ⟨here.grows.trans hbefore, hafter⟩

end Thread

namespace SetupEntry

def step? : SetupEntry → Option Step
  | .step s => some s
  | _ => none

/-- An entry that waits for something looks for it. -/
def Looks : SetupEntry → Prop
  | .waitForHealth _ | .waitForPort _ => True
  | _ => False

end SetupEntry

/-- What may be asked beside the setup steps. -/
def Suite.SetupAside (suite : Suite) (q : Query) : Prop :=
  q.IsAside ∨ q.IsProbe ∧ ∃ entry ∈ suite.setup, entry.Looks

namespace Thread

variable {suite : Suite} {settings : StepSettings} {ctx left : Context} {s : Step}
  {error : Option String} {es : List (Exchange Query.Answer)}

theorem of_runOnce [Libraries] (h : (s.runOnce settings ctx).Runs es (error, left)) :
    ∃ x : Execution, x.step = s ∧ x.error = error ∧
      Thread settings Query.IsAside ctx [x] es left := by
  have hexecute : ∀ own, Script.Runs (do
        let result ← (s.execute settings ctx).run
        pure (Step.failureText result, Step.contextAfter ctx result)) own (error, left) →
      ∃ x : Execution, x.step = s ∧ x.error = error ∧
        Thread settings Query.IsAside ctx [x] own left := by
    intro own hown
    obtain ⟨run, done, result, hrun, hdone, rfl⟩ := runs_bind hown
    obtain ⟨rfl, hpair⟩ := runs_done hdone
    obtain ⟨rfl, rfl⟩ := Prod.mk.inj hpair
    let x : Execution := ⟨s, ctx, run, result⟩
    exact ⟨x, rfl, rfl, .execution (x := x) hrun (.nil _)⟩
  unfold Step.runOnce at h
  cases hdelay : s.delay with
  | none =>
    simp only [hdelay] at h
    exact hexecute es h
  | some d =>
    simp only [hdelay] at h
    obtain ⟨waited, own, ⟨⟩, hwait, hown, rfl⟩ := runs_bind h
    obtain ⟨x, hstep, herror, hx⟩ := hexecute own hown
    have hsleep : AsksOnly Query.IsAside (Run.sleep d.toNanos) := Run.sleep_asksOnly trivial
    exact ⟨x, hstep, herror, (of_asksOnly ctx hsleep hwait).append hx⟩

theorem runs_log {level : LogLevel} {message : String}
    (h : (suite.log level message >>= fun _ => pure ctx).Runs es left) :
    left = ctx ∧ ∀ e ∈ es, e.1.IsAside := by
  obtain ⟨told, done, ⟨⟩, htold, hdone, rfl⟩ := runs_bind h
  obtain ⟨rfl, rfl⟩ := runs_done hdone
  have hlog : AsksOnly Query.IsAside (suite.log level message) := Run.emit_asksOnly trivial
  rw [List.append_nil]
  exact ⟨rfl, hlog.of_mem htold⟩

theorem of_runTeardown [Libraries] (h : (s.runTeardown suite settings ctx).Runs es left) :
    ∃ xs : List Execution, xs.map Execution.step = [s] ∧
      Thread settings Query.IsAside ctx xs es left := by
  obtain ⟨own, told, ⟨error, after⟩, hown, htold, rfl⟩ := runs_bind h
  obtain ⟨x, rfl, -, hx⟩ := of_runOnce hown
  have hend : left = after ∧ ∀ e ∈ told, e.1.IsAside := by
    cases error with
    | none =>
      obtain ⟨rfl, rfl⟩ := runs_done htold
      exact ⟨rfl, by simp⟩
    | some e =>
      cases hignore : x.step.ignoreError with
      | true =>
        simp only [hignore] at htold
        obtain ⟨rfl, rfl⟩ := runs_done htold
        exact ⟨rfl, by simp⟩
      | false =>
        simp only [hignore] at htold
        exact runs_log htold
  obtain ⟨rfl, hasides⟩ := hend
  exact ⟨[x], rfl, hx.append_asides hasides⟩

/-- What waits for something and then may log leaves the context as it is. -/
theorem of_wait [Libraries] {wait : Run Bool} {level : LogLevel} {message : String}
    (hwait : AsksOnly suite.SetupAside wait)
    (h : Script.Runs (do
      let found ← wait
      if !found then suite.log level message
      pure ctx) es left) : Thread settings suite.SetupAside ctx [] es left := by
  obtain ⟨looked, told, found, hlooked, htold, rfl⟩ := runs_bind h
  have hend : left = ctx ∧ ∀ e ∈ told, e.1.IsAside := by
    cases found with
    | true =>
      obtain ⟨rfl, rfl⟩ := runs_done htold
      exact ⟨rfl, by simp⟩
    | false => exact runs_log htold
  obtain ⟨rfl, hasides⟩ := hend
  have hlast : Thread settings suite.SetupAside left [] told left :=
    of_asides left fun e he => .inl (hasides e he)
  exact (of_asksOnly left hwait hlooked).append hlast

theorem of_setupEntry [Libraries] {entry : SetupEntry} (hentry : entry ∈ suite.setup)
    (h : (entry.run suite settings ctx).Runs es left) :
    ∃ xs : List Execution, xs.map Execution.step = entry.step?.toList ∧
      Thread settings suite.SetupAside ctx xs es left := by
  have herrand : entry.Looks → ∀ q : Query, q.IsErrand → suite.SetupAside q := by
    intro hlooks q hq
    cases q with
    | exec | send | connect => exact .inr ⟨trivial, entry, hentry, hlooks⟩
    | sleep => exact .inl trivial
    | _ => exact hq.elim
  have hclock : suite.SetupAside .clock := .inl trivial
  cases entry with
  | waitForHealth w =>
    have hwait := w.run_asksOnly (herrand trivial) hclock settings.baseUrl
    exact ⟨[], rfl, of_wait hwait h⟩
  | waitForPort w =>
    have hwait := w.run_asksOnly (herrand trivial) hclock
    exact ⟨[], rfl, of_wait hwait h⟩
  | delay d =>
    obtain ⟨slept, done, ⟨⟩, hslept, hdone, rfl⟩ := runs_bind h
    obtain ⟨rfl, rfl⟩ := runs_done hdone
    have hsleep : AsksOnly suite.SetupAside (Run.sleep d.toNanos) :=
      Run.sleep_asksOnly (.inl trivial)
    rw [List.append_nil]
    exact ⟨[], rfl, of_asksOnly left hsleep hslept⟩
  | step s =>
    obtain ⟨own, told, ⟨error, after⟩, hown, htold, rfl⟩ := runs_bind h
    obtain ⟨x, rfl, -, hx⟩ := of_runOnce hown
    have hend : left = after ∧ ∀ e ∈ told, e.1.IsAside := by
      cases error with
      | none =>
        obtain ⟨rfl, rfl⟩ := runs_done htold
        exact ⟨rfl, by simp⟩
      | some e => exact runs_log htold
    obtain ⟨rfl, hasides⟩ := hend
    exact ⟨[x], rfl, (hx.append_asides hasides).mono fun q hq => .inl hq⟩

theorem of_stages [Libraries] {σ α : Type} {aside : Query → Prop}
    {P : α → σ → List (Exchange Query.Answer) → σ → Prop} {R : α → List Execution → Prop} {s t : σ}
    {as : List α} (view : σ → Context) {ess : List (List (Exchange Query.Answer))}
    (h : Stages P as s ess t)
    (hstep : ∀ s, ∀ a ∈ as, ∀ es t, P a s es t →
      ∃ xs, R a xs ∧ Thread settings aside (view s) xs es (view t)) :
    ∃ xss, List.Forall₂ R as xss ∧
      Thread settings aside (view s) xss.flatten ess.flatten (view t) := by
  induction h with
  | nil s => exact ⟨[], .nil, .nil _⟩
  | @cons s t u a as es ess first rest ih =>
    obtain ⟨xs, hxs, hfirst⟩ := hstep s a List.mem_cons_self es t first
    have hothers := fun s b hb => hstep s b (List.mem_cons_of_mem a hb)
    obtain ⟨xss, hxss, hrest⟩ := ih hothers
    exact ⟨xs :: xss, .cons hxs hxss, hfirst.append hrest⟩

theorem of_round [Libraries] {round : Round}
    (h : (s.runOnce settings ctx).Runs round.own (round.error, left)) :
    ∃ x : Execution, x.step = s ∧ x.error = round.error ∧
      Thread settings Query.IsAside ctx [x] round.exchanges left := by
  obtain ⟨x, hstep, herror, hx⟩ := of_runOnce h
  have hlast : ∀ e ∈ [(⟨.clock, round.stop⟩ : Exchange Query.Answer)], e.1.IsAside := by
    intro e he
    rw [List.mem_singleton.mp he]
    trivial
  exact ⟨x, hstep, herror, .aside trivial (hx.append_asides hlast)⟩

theorem rest_aside (p : RetryPolicy) (number stop : Nat) :
    ∀ e ∈ p.rest number stop, e.1.IsAside := by
  intro e he
  unfold RetryPolicy.rest at he
  split at he
  · obtain ⟨nanos, -, rfl⟩ := List.mem_map.mp he
    trivial
  · cases he

theorem of_calls [Libraries] (p : RetryPolicy) {rounds : List Round}
    (h : RetryPolicy.Calls (s.runOnce settings) ctx rounds left) (first : Nat) :
    ∃ xs : List Execution, (∀ x ∈ xs, x.step = s) ∧
      xs.map Execution.error = rounds.map (·.error) ∧
      Thread settings Query.IsAside ctx xs (p.exchangesOf first rounds) left := by
  induction h generalizing first with
  | nil ctx => exact ⟨[], by simp, rfl, .nil ctx⟩
  | @cons ctx middle left round rounds hround hrest ih =>
    obtain ⟨x, hstep, herror, hx⟩ := of_round hround
    obtain ⟨xs, hsteps, herrors, hxs⟩ := ih (first + 1)
    refine ⟨x :: xs, ?_, ?_, ?_⟩
    · intro y hy
      rcases List.mem_cons.mp hy with rfl | hy
      · exact hstep
      · exact hsteps y hy
    · rw [List.map_cons, List.map_cons, herror, herrors]
    · rw [RetryPolicy.exchangesOf_cons]
      exact (hx.append_asides (rest_aside p first _)).append hxs

end Thread

namespace Runner

/-- How often a case is executed. The policy that holds for it is taken whole; when it gives more
than one attempt, the executions are the attempts that are made by it. -/
structure Repeats [Libraries] (r : Runner) (suite : Suite) (options : RunOptions) (case : Step)
    (group : List Execution) : Prop where
  skipped : (case.skipReason options.filter).isSome → group = []
  step : ∀ x ∈ group, x.step = case
  once : case.skipReason options.filter = none →
    (∀ p, case.retry.or (suite.retry.or r.retry) = some p → p.maxAttempts ≤ 1) → group.length = 1
  retried : case.skipReason options.filter = none →
    ∀ p, case.retry.or (suite.retry.or r.retry) = some p → 1 < p.maxAttempts →
      StopsInTime p.maxAttempts (group.map Execution.error) ∧
        ∃ start es outcome stop,
          (p.tryAll (case.runOnce (suite.settings options)) start).Runs es (outcome, stop) ∧
            outcome.attempts.map Attempt.error = group.map Execution.error

/-- The executions of a suite: one for each setup step, a group for each case, and one for each
teardown step, all on one context. -/
structure Schedule [Libraries] (r : Runner) (suite : Suite) (options : RunOptions) (ctx : Context)
    (before : List Execution) (groups : List (List Execution)) (after : List Execution)
    (es : List (Exchange Query.Answer)) (left : Context) : Prop where
  thread : ∃ es₁ es₂ es₃ ctx₁ ctx₂, es = es₁ ++ (es₂ ++ es₃) ∧
    Thread (suite.settings options) suite.SetupAside (ctx.defineAll suite.vars) before es₁ ctx₁ ∧
    Thread (suite.settings options) Query.IsAside ctx₁ groups.flatten es₂ ctx₂ ∧
    Thread (suite.settings options) Query.IsAside ctx₂ after es₃ left
  setup : before.map Execution.step = suite.setup.filterMap SetupEntry.step?
  cases : List.Forall₂ (r.Repeats suite options) suite.cases groups
  teardown : after.map Execution.step = suite.teardown
  vars : ∀ earlier name v later, suite.vars = earlier ++ (name, v) :: later →
    name ∉ Entries.keys later →
      Entries.get? (ctx.defineAll suite.vars).runtime name =
        some ((ctx.defineAll earlier).resolve v)
  others : ∀ name ∉ Entries.keys suite.vars,
    Entries.get? (ctx.defineAll suite.vars).runtime name = Entries.get? ctx.runtime name
  grows : ctx.Grows left
  kept : ∀ x ∈ before ++ (groups.flatten ++ after), ctx.Grows x.before ∧ x.before.Grows x.after

variable {r : Runner} {suite : Suite} {options : RunOptions} {case : Step} {ctx left : Context}
  {es : List (Exchange Query.Answer)}

theorem policyFor_eq_some {p : RetryPolicy} :
    r.policyFor suite case = some p ↔
      case.retry.or (suite.retry.or r.retry) = some p ∧ 1 < p.maxAttempts := by
  simp [policyFor, RetryPolicy.effective, RetryPolicy.retries, Option.filter_eq_some_iff]

theorem runs_tryCase [Libraries] {result : Option String × Option (List Attempt)}
    (hruns : case.skipReason options.filter = none)
    (h : (r.tryCase suite (suite.settings options) case ctx).Runs es (result, left)) :
    ∃ group, r.Repeats suite options case group ∧
      Thread (suite.settings options) Query.IsAside ctx group es left := by
  unfold tryCase at h
  cases hp : r.policyFor suite case with
  | none =>
    simp only [hp] at h
    obtain ⟨own, done, ⟨error, after⟩, hown, hdone, rfl⟩ := runs_bind h
    obtain ⟨rfl, hpair⟩ := runs_done hdone
    obtain ⟨-, rfl⟩ := Prod.mk.inj hpair
    obtain ⟨x, hstep, -, hx⟩ := Thread.of_runOnce hown
    rw [List.append_nil]
    refine ⟨[x], ⟨?_, ?_, ?_, ?_⟩, hx⟩
    · simp [hruns]
    · simp [hstep]
    · exact fun _ _ => rfl
    · intro _ p hpolicy hmany
      have hsome := policyFor_eq_some.mpr ⟨hpolicy, hmany⟩
      rw [hp] at hsome
      cases hsome
  | some p =>
    simp only [hp] at h
    obtain ⟨own, done, ⟨outcome, after⟩, hown, hdone, rfl⟩ := runs_bind h
    obtain ⟨rfl, hpair⟩ := runs_done hdone
    obtain ⟨-, rfl⟩ := Prod.mk.inj hpair
    obtain ⟨hpolicy, hmany⟩ := policyFor_eq_some.mp hp
    have hlimit : max p.maxAttempts 1 = p.maxAttempts := by omega
    obtain ⟨rounds, history⟩ := RetryPolicy.runs_tryAll hown
    obtain ⟨group, hsteps, herrors, hgroup⟩ := Thread.of_calls p history.calls 1
    rw [List.append_nil, history.exchanges]
    refine ⟨group, ⟨?_, hsteps, ?_, ?_⟩, hgroup⟩
    · simp [hruns]
    · intro _ hfew
      have hone := hfew p hpolicy
      omega
    · intro _ p' hpolicy' _
      rw [hpolicy] at hpolicy'
      cases hpolicy'
      have hcount := history.count
      rw [hlimit, ← herrors] at hcount
      exact ⟨hcount, ctx, own, outcome, left, hown, history.attempts_error.trans herrors.symm⟩

theorem Diagnosis.asides {report : Option DiagnosticsReport} (h : r.Diagnosis options es report) :
    ∀ e ∈ es, e.1.IsAside := by
  cases h <;> simp [Query.IsAside]

theorem CaseCourse.repeats [Libraries] {s t : Tally × Context}
    (h : r.CaseCourse suite options case s es t) :
    ∃ group, r.Repeats suite options case group ∧
      Thread (suite.settings options) Query.IsAside s.2 group es t.2 := by
  cases h with
  | skipped why =>
    have hgroup : r.Repeats suite options case [] :=
      ⟨fun _ => rfl, by simp, by simp [why], by simp [why]⟩
    exact ⟨[], hgroup, .aside trivial (.nil _)⟩
  | passed runs tried =>
    obtain ⟨group, hgroup, hthread⟩ := runs_tryCase runs tried
    refine ⟨group, hgroup, .aside trivial (.aside trivial (hthread.append_asides ?_))⟩
    simp [Query.IsAside]
  | failed runs tried _ diagnosis =>
    obtain ⟨group, hgroup, hthread⟩ := runs_tryCase runs tried
    refine ⟨group, hgroup, .aside trivial (.aside trivial (hthread.append_asides ?_))⟩
    have hasked := diagnosis.asides
    exact List.forall_mem_cons.mpr ⟨trivial,
      List.forall_mem_append.mpr ⟨hasked, by simp [Query.IsAside]⟩⟩

theorem map_step_of_forall₂ [Libraries] {α : Type} {f : α → List Step} {as : List α}
    {xss : List (List Execution)}
    (h : List.Forall₂ (fun a xs => xs.map Execution.step = f a) as xss) :
    xss.flatten.map Execution.step = as.flatMap f := by
  induction h with
  | nil => rfl
  | cons first rest ih => rw [List.flatten_cons, List.map_append, List.flatMap_cons, first, ih]

theorem filterMap_step? (entries : List SetupEntry) :
    entries.flatMap (fun entry => entry.step?.toList) = entries.filterMap SetupEntry.step? := by
  induction entries with
  | nil => rfl
  | cons entry entries ih =>
    rw [List.flatMap_cons, ih, List.filterMap_cons]
    cases entry.step? <;> rfl

theorem runs_runSuite [Libraries] {summary : Summary}
    (h : (r.runSuite suite options ctx).Runs es (summary, left)) :
    ∃ before groups after, Schedule r suite options ctx before groups after es left := by
  cases runs_runSuite_course h with
  | @intro start stop before groups after ctx₁ ctx₂ left tally setup _ cases teardown _ =>
    obtain ⟨xss₁, hsteps₁, hthread₁⟩ := Thread.of_stages id (setup.stages fun _ _ _ _ => id)
      fun ctx entry hentry es left hrun => Thread.of_setupEntry hentry hrun
    obtain ⟨xss₂, hgroups, hthread₂⟩ := Thread.of_stages Prod.snd cases
      fun state case _ es state' hcase => hcase.repeats
    obtain ⟨xss₃, hsteps₃, hthread₃⟩ := Thread.of_stages id (teardown.stages fun _ _ _ _ => id)
      fun ctx s _ es left hrun => Thread.of_runTeardown hrun
    -- What is asked before the setup and after the teardown goes with these as asides.
    have hbefore := Thread.aside (e := ⟨.clock, start⟩) (.inl trivial) (.aside (e := ⟨.emit
      (.suiteStart suite.name suite.description suite.cases.length), ()⟩) (.inl trivial) hthread₁)
    have hclosing : ∀ e ∈ ([⟨.clock, stop⟩, ⟨.emit (.suiteEnd suite.name tally.passed tally.failed
        tally.skipped (stop - start)), ()⟩] : List (Exchange Query.Answer)), e.1.IsAside := by
      simp [Query.IsAside]
    have hafter := hthread₃.append_asides hclosing
    have hsetup : xss₁.flatten.map Execution.step = suite.setup.filterMap SetupEntry.step? := by
      rw [map_step_of_forall₂ hsteps₁, filterMap_step?]
    have hteardown : xss₃.flatten.map Execution.step = suite.teardown := by
      rw [map_step_of_forall₂ hsteps₃]
      simp
    obtain ⟨hgrows₁, hkept₁⟩ := hbefore.grows
    obtain ⟨hgrows₂, hkept₂⟩ := hthread₂.grows
    obtain ⟨hgrows₃, hkept₃⟩ := hafter.grows
    have hvars := ctx.defineAll_grows suite.vars
    have hmiddle := hvars.trans hgrows₁
    have hlast := hmiddle.trans hgrows₂
    refine ⟨xss₁.flatten, xss₂, xss₃.flatten, ⟨_, _, _, _, _, rfl, hbefore, hthread₂, hafter⟩,
      hsetup, hgroups, hteardown, ?_, ?_, hlast.trans hgrows₃, ?_⟩
    · intro earlier name v later hsplit hname
      rw [hsplit]
      exact Context.get?_defineAll hname
    · exact fun name hname => Context.get?_defineAll_of_not_mem hname
    · intro x hx
      simp only [List.mem_append] at hx
      rcases hx with hx | hx | hx
      · exact ⟨hvars.trans (hkept₁ x hx).1, (hkept₁ x hx).2⟩
      · exact ⟨hmiddle.trans (hkept₂ x hx).1, (hkept₂ x hx).2⟩
      · exact ⟨hlast.trans (hkept₃ x hx).1, (hkept₃ x hx).2⟩

theorem calm_of_linear (h : ∀ p, (r.retry = some p ∨ suite.retry = some p ∨
    ∃ case ∈ suite.cases, case.retry = some p) → p.backoff ≠ some .exponential) :
    r.Calm suite options := by
  intro case hcase _ p hp
  obtain ⟨hpolicy, -⟩ := policyFor_eq_some.mp hp
  apply RetryPolicy.calm_of_linear
  apply h
  simp only [Option.or_eq_some_iff] at hpolicy
  rcases hpolicy with hcasePolicy | ⟨-, hsuite | ⟨-, hrunner⟩⟩
  · exact .inr (.inr ⟨case, hcase, hcasePolicy⟩)
  · exact .inr (.inl hsuite)
  · exact .inl hrunner

theorem runSuite_schedule [Libraries] (r : Runner) (suite : Suite) (options : RunOptions)
    (ctx : Context) :
    (∀ es summary left, (r.runSuite suite options ctx).Runs es (summary, left) →
      ∃ before groups after, Schedule r suite options ctx before groups after es left) ∧
    (r.Calm suite options →
      ∀ (σ : Type) (respond : Responder Query.Answer σ), respond.Answers → ∀ now w,
        ∃ summary left later w' before groups after,
          (r.runSuite suite options ctx).play respond now w = some ((summary, left), later, w') ∧
          Schedule r suite options ctx before groups after
            ((r.runSuite suite options ctx).exchanges respond now w) left) := by
  refine ⟨fun es summary left h => runs_runSuite h, ?_⟩
  intro calm σ respond answers now w
  have hplay := Script.play_isSome (runSuite_hasAnswer calm ctx) answers now w
  obtain ⟨⟨⟨summary, left⟩, later, w'⟩, h⟩ := Option.isSome_iff_exists.mp hplay
  obtain ⟨before, groups, after, hschedule⟩ := runs_runSuite (Script.runs_of_play h)
  exact ⟨summary, left, later, w', before, groups, after, h, hschedule⟩

end Runner

namespace Rehearsal

/-- A suite whose second variable refers to the first, and whose case is tried three times. -/
def threadedSuite : Suite :=
  { idleSuite with
    vars := [("host", .string "db"), ("place", .string "http://\x7b\x7bruntime.host\x7d\x7d")] }

theorem runSuite_schedule_threaded :
    Runner.Calm ⟨false, none⟩ threadedSuite idleOptions ∧ Responder.Answers World.respond ∧
    ∃ summary left later w' before groups after,
      (Runner.runSuite ⟨false, none⟩ threadedSuite idleOptions .empty).play World.respond 0
        idleWorld = some ((summary, left), later, w') ∧
      Runner.Schedule ⟨false, none⟩ threadedSuite idleOptions .empty before groups after
        ((Runner.runSuite ⟨false, none⟩ threadedSuite idleOptions .empty).exchanges World.respond 0
          idleWorld) left := by
  have calm : Runner.Calm ⟨false, none⟩ threadedSuite idleOptions := by
    apply Runner.calm_of_linear
    rintro p (hrunner | hsuite | ⟨case, hcase, hpolicy⟩)
    · cases hrunner
    · cases hsuite
      decide
    · have hretry : case.retry = none := by
        rcases List.mem_cons.mp hcase with rfl | hcase
        · rfl
        · rw [List.mem_singleton.mp hcase]
          rfl
      rw [hretry] at hpolicy
      cases hpolicy
  exact ⟨calm, World.respond_answers,
    (Runner.runSuite_schedule _ _ _ _).2 calm _ _ World.respond_answers 0 idleWorld⟩

end Rehearsal

end Assay

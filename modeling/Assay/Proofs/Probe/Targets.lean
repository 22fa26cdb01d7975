import Assay.Libraries.BuiltIn
import Assay.Proofs.Probe.Questions
import Assay.Runner.Suite

namespace Assay

section Asking

variable {α β : Type} {P : Query → Prop} {settings : StepSettings} {own : Option String}
  {kind container : String}

/-- A run that asks something, and nothing but such questions. -/
structure Trial.Asks (P : Query → Prop) (x : Trial α) : Prop where
  only : x.AsksOnly P
  begins : ∃ q next, ExceptT.run x = .ask q next

theorem Trial.Asks.mono {R : Query → Prop} {x : Trial α} (h : x.Asks P) (hPR : ∀ q, P q → R q) :
    x.Asks R := ⟨Script.AsksOnly.mono h.only hPR, h.begins⟩

theorem Trial.AsksOnly.asks_unchanged {ctx : Context} {failures : Trial (List String)}
    (h : failures.AsksOnly P) (begins : ∃ q next, ExceptT.run failures = .ask q next) :
    (Step.unchanged ctx failures).Asks P := by
  refine ⟨Step.unchanged_asksOnly h, ?_⟩
  obtain ⟨q, next, hask⟩ := begins
  have hrun : ExceptT.run (Step.unchanged ctx failures) = (ExceptT.run failures >>= _) := rfl
  rw [hrun, hask]
  exact ⟨q, _, rfl⟩

/-- A command in a container. -/
def Query.IsInside (container : String) (q : Query) : Prop :=
  ∃ command limit, q = .exec container command limit

theorem PortStep.Probes.isInside {s : PortStep} {q : Query} (hq : s.Probes q)
    (h : s.container = some container) : q.IsInside container := by
  unfold Probes at hq
  rw [h] at hq
  obtain ⟨command, rfl⟩ := hq
  exact ⟨command, _, rfl⟩

theorem PortStep.Probes.connects {s : PortStep} {q : Query} (hq : s.Probes q)
    (h : s.container = none) :
    q = .connect (s.host.getD "localhost") s.port (s.timeout.getD limit) := by
  unfold Probes at hq
  rwa [h] at hq

theorem StepSettings.target_ok (h : own.or settings.container = some container) :
    settings.target own kind = .ok container := by
  unfold target
  rw [h]

theorem StepSettings.eq_of_target {target : String} (h : own.or settings.container = some container)
    (htarget : settings.target own kind = .ok target) : target = container := by
  rw [target_ok h] at htarget
  exact (Except.ok.inj htarget).symm

theorem StepSettings.target_error (h : own.or settings.container = none) :
    settings.target own kind = .error (.missingContainer kind) := by
  unfold target
  rw [h]

theorem begins_target {command : String} {limit : Duration}
    {f : String → ExecOutput → Trial α} (h : settings.target own kind = .ok container) :
    ∃ q next, ExceptT.run (liftM (settings.target own kind) >>= fun t : String =>
      Run.exec t command limit >>= f t : Trial α) = .ask q next := by
  rw [h]
  exact ⟨_, _, rfl⟩

theorem throws_target {f : String → Trial α} {e : Error}
    (h : settings.target own kind = .error e) :
    (liftM (settings.target own kind) >>= f : Trial α) = throw e := by
  rw [h]
  rfl

end Asking

namespace Action

/-- The container that an action names. -/
def container? : Action → Option String
  | request _ => none
  | exec s => s.container
  | file s => s.container
  | process s => s.container
  | port s => s.container

/-- Whether an action consists of commands, which have to be run somewhere. -/
def isCommand : Action → Bool
  | exec _ | file _ | process _ => true
  | request _ | port _ => false

end Action

namespace Step

variable {s : Step} {settings : StepSettings} {ctx : Context} {action a : Action}
  {expect : Option Expectation} {container : String}

/-- What a step does once its texts are filled. -/
def perform [Libraries] (s : Step) (settings : StepSettings) (ctx : Context)
    (expect : Option Expectation) :
    Action → Trial (List String × Context)
  | .request r => r.run expect s.save settings ctx
  | .exec e => unchanged ctx (e.run expect settings)
  | .file f => unchanged ctx (f.run settings)
  | .process p => unchanged ctx (p.run settings)
  | .port p => unchanged ctx p.run

/-- An action with the texts filled, and what the step expects of it. -/
def filled (s : Step) (ctx : Context) (action : Action) :
    Except Error (Action × Option Expectation) := do
  let filled ← action.resolve ctx
  let expect ← Expectation.resolve ctx s.expect
  pure (filled, expect)

theorem execute_eq_perform [Libraries] (haction : s.action = some action) :
    s.execute settings ctx = (do
      let (a, expect) ← liftM (s.filled ctx action)
      s.perform settings ctx expect a) := by
  unfold execute filled
  rw [haction]
  dsimp only
  cases action.resolve ctx with
  | error e => rfl
  | ok a =>
    cases Expectation.resolve ctx s.expect with
    | error e => rfl
    | ok expect => cases a <;> rfl

theorem perform_asks_inside [Libraries] (hcommand : a.isCommand)
    (h : a.container?.or settings.container = some container) :
    (s.perform settings ctx expect a).Asks (Query.IsInside container) := by
  cases a with
  | request | port => cases hcommand
  | exec e =>
    refine Trial.AsksOnly.asks_unchanged ((e.run_executes expect settings).mono ?_)
      (begins_target (StepSettings.target_ok h))
    rintro q ⟨target, htarget, rfl⟩
    obtain rfl := StepSettings.eq_of_target h htarget
    exact ⟨_, _, rfl⟩
  | file f =>
    refine Trial.AsksOnly.asks_unchanged ((f.run_inspects_inside settings).mono ?_)
      (begins_target (StepSettings.target_ok h))
    rintro q ⟨target, htarget, command, rfl, -⟩
    obtain rfl := StepSettings.eq_of_target h htarget
    exact ⟨_, _, rfl⟩
  | process p =>
    refine Trial.AsksOnly.asks_unchanged ((p.run_lists_inside settings).mono ?_)
      (begins_target (StepSettings.target_ok h))
    rintro q ⟨target, htarget, command, rfl, -⟩
    obtain rfl := StepSettings.eq_of_target h htarget
    exact ⟨_, _, rfl⟩

theorem perform_throws [Libraries] (hcommand : a.isCommand)
    (h : a.container?.or settings.container = none) :
    s.perform settings ctx expect a = throw (.missingContainer a.kind) := by
  cases a with
  | request | port => cases hcommand
  | exec e => exact congrArg (unchanged ctx) (throws_target (StepSettings.target_error h))
  | file f => exact congrArg (unchanged ctx) (throws_target (StepSettings.target_error h))
  | process p => exact congrArg (unchanged ctx) (throws_target (StepSettings.target_error h))

theorem perform_port [Libraries] (s : Step) (settings : StepSettings) (ctx : Context)
    (expect : Option Expectation) (p : PortStep) :
    (s.perform settings ctx expect (.port p)).Asks p.Probes := by
  refine Trial.AsksOnly.asks_unchanged p.run_probes ?_
  unfold PortStep.run PortStep.look
  cases p.container with
  | some container => exact ⟨_, _, rfl⟩
  | none => exact ⟨_, _, rfl⟩

/-- The commands of a step are run in the container that the step names, or else its suite, or else
the options. A port is looked at from inside a container only if the step itself names one: whatever
suite and options say, it is looked at by a connection otherwise. -/
theorem execute_targets [Libraries] (suite : Suite) (options : RunOptions)
    (haction : s.action = some action) :
    let run := s.execute (suite.settings options) ctx
    (∀ e, s.filled ctx action = .error e → run = throw e) ∧
    ∀ a expect, s.filled ctx action = .ok (a, expect) →
      (a.isCommand →
        (∀ container, a.container?.or (suite.container.or options.container) = some container →
          run.Asks (Query.IsInside container)) ∧
        (a.container?.or (suite.container.or options.container) = none →
          run = throw (.missingContainer a.kind))) ∧
      ∀ p, a = .port p →
        (∀ container, p.container = some container → run.Asks (Query.IsInside container)) ∧
        (p.container = none → run.Asks (· =
          .connect (p.host.getD "localhost") p.port (p.timeout.getD PortStep.limit))) := by
  intro run
  have hrun : run = _ := execute_eq_perform haction
  refine ⟨?_, fun a expect hfilled => ?_⟩
  · intro e he
    rw [hrun, he]
    rfl
  have hperform : run = s.perform (suite.settings options) ctx expect a := by
    rw [hrun, hfilled]
    rfl
  rw [hperform]
  refine ⟨fun hcommand => ⟨fun container h => perform_asks_inside hcommand h,
    fun h => perform_throws hcommand h⟩, ?_⟩
  rintro p rfl
  have hport := perform_port s (suite.settings options) ctx expect p
  exact ⟨fun container h => hport.mono fun q hq => hq.isInside h,
    fun h => hport.mono fun q hq => hq.connects h⟩

/-- Both a command and a port are in a suite with a container of its own. -/
theorem execute_targets_suite :
    let suite : Suite := ⟨"s", none, false, [], none, none, some "app", [], [], []⟩
    let options : RunOptions := ⟨"", none, some "db", none, none⟩
    let list : Step := ⟨none, some (.exec ⟨"ls", none⟩), none, none, [], false, none, false⟩
    let port : Step :=
      ⟨none, some (.port ⟨80, none, none, none, none⟩), none, none, [], false, none, false⟩
    (list.execute (suite.settings options) .empty).Asks (Query.IsInside "app") ∧
      (port.execute (suite.settings options) .empty).Asks
        (· = .connect "localhost" 80 PortStep.limit) := by
  intro suite options list port
  have htext : Context.empty.fill "ls" = "ls" := by decide +kernel
  have hvalue : Context.empty.resolve (Action.exec ⟨"ls", none⟩).toValue =
      (Action.exec ⟨"ls", none⟩).toValue := by
    change Value.object
      [("exec", .object [("command", .string (Context.empty.fill "ls")), ("container", .null)])] = _
    rw [htext]
    rfl
  have hlist : list.filled .empty (.exec ⟨"ls", none⟩) = .ok (.exec ⟨"ls", none⟩, none) := by
    unfold filled Action.resolve Context.resolveAs
    rw [hvalue]
    rfl
  have hport : port.filled .empty (.port ⟨80, none, none, none, none⟩) =
      .ok (.port ⟨80, none, none, none, none⟩, none) := rfl
  have hinside := (execute_targets suite options (s := list) rfl).2 _ _ hlist
  have hconnects := (execute_targets suite options (s := port) rfl).2 _ _ hport
  exact ⟨(hinside.1 rfl).1 "app" rfl, (hconnects.2 _ rfl).2 rfl⟩

/-- A port is looked at from outside although its suite has a container. -/
theorem port_outside_container :
    ¬ ∀ (suite : Suite) (options : RunOptions) (s : Step) (ctx : Context) (p : PortStep)
      (container : String), s.action = some (.port p) →
      p.container.or (suite.container.or options.container) = some container →
      (s.execute (suite.settings options) ctx).AsksOnly (Query.IsInside container) := by
  intro h
  have hasks := h ⟨"s", none, false, [], none, none, some "app", [], [], []⟩
    ⟨"", none, none, none, none⟩
    ⟨none, some (.port ⟨80, none, none, none, none⟩), none, none, [], false, none, false⟩ .empty
    ⟨80, none, none, none, none⟩ "app" rfl rfl
  cases hasks with
  | ask here rest =>
    obtain ⟨command, limit, hcommand⟩ := here
    cases hcommand

end Step

end Assay

import Assay.Proofs.Script.Questions
import Assay.Runner.Basic

namespace Assay

open Script (asksOnly_query)

namespace Query

/-- What a step asks to have its effect and to look at it: commands, requests and connections. -/
def IsProbe : Query → Prop
  | exec .. | send .. | connect .. => True
  | _ => False

/-- What a step may ask: besides its probes, the delay before them. -/
def IsErrand : Query → Prop
  | exec .. | send .. | connect .. | sleep _ => True
  | _ => False

/-- What says nothing to those who take the reports. -/
def IsQuiet : Query → Prop
  | emit _ => False
  | _ => True

/-- Everything but a wait without end. -/
def HasAnswer : Query → Prop
  | sleepForever => False
  | _ => True

theorem IsProbe.isErrand {q : Query} (h : q.IsProbe) : q.IsErrand := by
  cases q <;> trivial

theorem IsErrand.isQuiet {q : Query} (h : q.IsErrand) : q.IsQuiet := by
  cases q <;> trivial

theorem IsErrand.hasAnswer {q : Query} (h : q.IsErrand) : q.HasAnswer := by
  cases q <;> trivial

end Query

theorem Run.clock_asksOnly {P : Query → Prop} (h : P .clock) : Script.AsksOnly P Run.clock :=
  asksOnly_query h

theorem Run.sleep_asksOnly {P : Query → Prop} {nanos : Nat} (h : P (.sleep nanos)) :
    Script.AsksOnly P (Run.sleep nanos) := asksOnly_query h

theorem Run.emit_asksOnly {P : Query → Prop} {event : Event} (h : P (.emit event)) :
    Script.AsksOnly P (Run.emit event) := asksOnly_query h

section Steps

open Trial

variable {P : Query → Prop}

theorem asksOnly_target {α : Type} {settings : StepSettings} {own : Option String} {kind : String}
    {f : String → Trial α}
    (h : ∀ target, settings.target own kind = .ok target → Trial.AsksOnly P (f target)) :
    Trial.AsksOnly P (liftM (settings.target own kind) >>= f) := by
  cases htarget : settings.target own kind with
  | ok target => exact h target htarget
  | error e => exact asksOnly_throw e

theorem ExecStep.run_executes [Libraries] (s : ExecStep) (expect : Option Expectation)
    (settings : StepSettings) :
    Trial.AsksOnly (fun q => ∃ target, settings.target s.container "exec" = .ok target ∧
      q = .exec target s.command limit) (s.run expect settings) := by
  refine asksOnly_target fun target htarget => ?_
  exact Trial.asksOnly_bind (asksOnly_query ⟨target, htarget, rfl⟩) fun output => asksOnly_except _

theorem ExecStep.run_asksOnly [Libraries] (s : ExecStep) (expect : Option Expectation)
    (settings : StepSettings) : Trial.AsksOnly Query.IsProbe (s.run expect settings) :=
  (s.run_executes expect settings).mono <| by
    rintro _ ⟨target, -, rfl⟩
    trivial

/-- The commands by which a file is looked at. -/
inductive FileStep.Inspects (path : String) : String → Prop
  | existence : Inspects path (existsCommand path)
  | mode : Inspects path (statCommand "%a" path)
  | owner (owner : String) : Inspects path (statCommand (ownerFormat owner) path)
  | size : Inspects path (statCommand "%s" path)
  | content : Inspects path (readCommand path)

theorem FileStep.inspect_asksOnly {α : Type} {target : String} {wanted : Option α}
    {command : α → String} {failures : α → ExecOutput → Except Error (List String)}
    (h : ∀ a, P (.exec target (command a) limit)) :
    Trial.AsksOnly P (FileStep.inspect target wanted command failures) := by
  cases wanted with
  | none => exact Trial.asksOnly_pure _
  | some a => exact Trial.asksOnly_bind (asksOnly_query (h a)) fun o => asksOnly_except _

/-- A file step runs commands about its file in its container, and nothing else. -/
theorem FileStep.run_inspects_inside [Libraries] (s : FileStep) (settings : StepSettings) :
    Trial.AsksOnly (fun q => ∃ target, settings.target s.container "file" = .ok target ∧
      ∃ command, q = .exec target command limit ∧ Inspects s.path command) (s.run settings) := by
  refine asksOnly_target fun target htarget => ?_
  have hask {command : String} (h : Inspects s.path command) :
      ∃ t, settings.target s.container "file" = .ok t ∧ ∃ c,
        Query.exec target command limit = .exec t c limit ∧ Inspects s.path c :=
    ⟨target, htarget, command, rfl, h⟩
  refine Trial.asksOnly_bind (asksOnly_query (hask .existence)) fun o => ?_
  dsimp only
  split
  · exact Trial.asksOnly_pure _
  · split
    · refine Trial.asksOnly_bind (inspect_asksOnly fun _ => hask .mode) fun _ => ?_
      refine Trial.asksOnly_bind (inspect_asksOnly fun owner => hask (.owner owner)) fun _ => ?_
      refine Trial.asksOnly_bind (inspect_asksOnly fun _ => hask .size) fun _ => ?_
      exact Trial.asksOnly_bind (inspect_asksOnly fun _ => hask .content) fun _ =>
        Trial.asksOnly_pure _
    · exact Trial.asksOnly_pure _

theorem FileStep.run_inspects [Libraries] (s : FileStep) (settings : StepSettings) :
    Trial.AsksOnly (fun q => ∃ target command, q = .exec target command limit ∧
      Inspects s.path command) (s.run settings) :=
  (s.run_inspects_inside settings).mono fun _ ⟨target, _, command, h⟩ => ⟨target, command, h⟩

theorem FileStep.run_asksOnly [Libraries] (s : FileStep) (settings : StepSettings) :
    Trial.AsksOnly Query.IsProbe (s.run settings) :=
  (s.run_inspects settings).mono <| by
    rintro _ ⟨target, command, rfl, -⟩
    trivial

/-- The commands by which processes are listed. -/
inductive ProcessStep.Lists (name : String) : String → Prop
  | full : Lists name (listCommand name)
  | plain : Lists name (plainListCommand name)

/-- A process step runs commands that list the processes of its name in its container, and nothing
else. -/
theorem ProcessStep.run_lists_inside (s : ProcessStep) (settings : StepSettings) :
    Trial.AsksOnly (fun q => ∃ target, settings.target s.container "process" = .ok target ∧
      ∃ command, q = .exec target command limit ∧ Lists s.name command) (s.run settings) := by
  refine asksOnly_target fun target htarget => ?_
  refine Trial.asksOnly_bind (asksOnly_query ⟨target, htarget, _, rfl, .full⟩) fun first => ?_
  dsimp only
  split
  · exact Trial.asksOnly_bind (Trial.asksOnly_pure _) fun listing => Trial.asksOnly_pure _
  · refine Trial.asksOnly_bind (asksOnly_query ⟨target, htarget, _, rfl, .plain⟩) fun second => ?_
    exact Trial.asksOnly_bind (Trial.asksOnly_pure _) fun listing => Trial.asksOnly_pure _

theorem ProcessStep.run_lists (s : ProcessStep) (settings : StepSettings) :
    Trial.AsksOnly (fun q => ∃ target command, q = .exec target command limit ∧
      Lists s.name command) (s.run settings) :=
  (s.run_lists_inside settings).mono fun _ ⟨target, _, command, h⟩ => ⟨target, command, h⟩

theorem ProcessStep.run_asksOnly (s : ProcessStep) (settings : StepSettings) :
    Trial.AsksOnly Query.IsProbe (s.run settings) :=
  (s.run_lists settings).mono <| by
    rintro _ ⟨target, command, rfl, -⟩
    trivial

/-- How a port is looked at: by commands in the container of the step, or else by a connection. -/
def PortStep.Probes (s : PortStep) (q : Query) : Prop :=
  match s.container with
  | some container => ∃ command, q = .exec container command limit
  | none => q = .connect (s.host.getD "localhost") s.port (s.timeout.getD limit)

theorem PortStep.Probes.isProbe {s : PortStep} {q : Query} (h : s.Probes q) : q.IsProbe := by
  unfold Probes at h
  split at h
  · obtain ⟨command, rfl⟩ := h
    trivial
  · subst h
    trivial

theorem PortStep.listensInside_asksOnly (container : String) (port : Nat) :
    Trial.AsksOnly (fun q => ∃ command, q = .exec container command limit)
      (PortStep.listensInside container port) := by
  refine Trial.asksOnly_bind (asksOnly_query ⟨_, rfl⟩) fun listing => ?_
  split
  · exact Trial.asksOnly_pure _
  · exact Trial.asksOnly_bind (asksOnly_query ⟨_, rfl⟩) fun table => Trial.asksOnly_pure _

theorem PortStep.look_probes (s : PortStep) : Trial.AsksOnly s.Probes s.look := by
  unfold PortStep.look Probes
  cases s.container with
  | some container =>
    exact Trial.asksOnly_bind (listensInside_asksOnly ..) fun listening => Trial.asksOnly_pure _
  | none =>
    refine Trial.asksOnly_bind (asksOnly_run ?_) fun listening => Trial.asksOnly_pure _
    exact asksOnly_query rfl

theorem PortStep.run_probes (s : PortStep) : Trial.AsksOnly s.Probes s.run := by
  refine Trial.asksOnly_bind s.look_probes fun found => ?_
  obtain ⟨listening, place⟩ := found
  dsimp only
  split <;> exact Trial.asksOnly_pure _

theorem PortStep.run_asksOnly (s : PortStep) : Trial.AsksOnly Query.IsProbe s.run :=
  s.run_probes.mono fun _ => Probes.isProbe

theorem RequestStep.send_asksOnly [Libraries] (s : RequestStep) (settings : StepSettings) :
    Trial.AsksOnly Query.IsProbe (s.send settings) := by
  refine Trial.asksOnly_bind (asksOnly_except _) fun request => ?_
  refine Trial.asksOnly_bind (asksOnly_run ?_) fun reply => asksOnly_except _
  exact asksOnly_query trivial

theorem RequestStep.run_asksOnly [Libraries] (s : RequestStep) (expect : Option Expectation)
    (save : Entries String) (settings : StepSettings) (ctx : Context) :
    Trial.AsksOnly Query.IsProbe (s.run expect save settings ctx) := by
  refine Trial.asksOnly_bind (s.send_asksOnly settings) fun r => ?_
  exact Trial.asksOnly_bind (asksOnly_except _) fun failed => Trial.asksOnly_pure _

theorem Step.unchanged_asksOnly {ctx : Context} {failures : Trial (List String)}
    (h : Trial.AsksOnly P failures) : Trial.AsksOnly P (Step.unchanged ctx failures) :=
  Trial.asksOnly_bind h fun _ => Trial.asksOnly_pure _

theorem Step.execute_asksOnly [Libraries] (s : Step) (settings : StepSettings) (ctx : Context) :
    Trial.AsksOnly Query.IsProbe (s.execute settings ctx) := by
  unfold Step.execute
  cases s.action with
  | none => exact asksOnly_throw _
  | some action =>
    refine Trial.asksOnly_bind (asksOnly_except _) fun action => ?_
    refine Trial.asksOnly_bind (asksOnly_except _) fun expect => ?_
    cases action with
    | request r => exact r.run_asksOnly ..
    | exec e => exact unchanged_asksOnly (e.run_asksOnly ..)
    | file f => exact unchanged_asksOnly (f.run_asksOnly ..)
    | process p => exact unchanged_asksOnly (p.run_asksOnly ..)
    | port p => exact unchanged_asksOnly p.run_asksOnly

theorem Step.runOnce_asksOnly [Libraries] (s : Step) (settings : StepSettings) (ctx : Context) :
    Script.AsksOnly Query.IsErrand (s.runOnce settings ctx) := by
  have hresult : Script.AsksOnly Query.IsErrand (s.execute settings ctx).run :=
    (s.execute_asksOnly settings ctx).mono fun q => Query.IsProbe.isErrand
  unfold Step.runOnce
  cases s.delay with
  | some d =>
    refine Script.asksOnly_bind (asksOnly_query trivial) fun _ => ?_
    exact Script.asksOnly_bind hresult fun result => Script.asksOnly_pure _
  | none => exact Script.asksOnly_bind hresult fun result => Script.asksOnly_pure _

end Steps

end Assay

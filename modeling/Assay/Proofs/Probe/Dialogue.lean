import Assay.Probe.File
import Assay.Proofs.Script.Trials

namespace Assay.FileStep

open Script (Exchange runs_done runs_query runs_unique)

variable {s : FileStep} {settings : StepSettings} {target : String}
  {es : List (Exchange Query.Answer)} {r : Except Error (List String)}

/-- A command of a file step with what came back. -/
def asked (target command : String) (o : ExecOutput) : Exchange Query.Answer :=
  ⟨.exec target command limit, (.ok o : Except Error ExecOutput)⟩

/-- A command with the error that came back instead of an output. -/
def failing (target command : String) (e : Error) : Exchange Query.Answer :=
  ⟨.exec target command limit, (.error e : Except Error ExecOutput)⟩

/-- Some command brought an error. -/
def Lost (es : List (Exchange Query.Answer)) : Prop :=
  ∃ target command e, failing target command e ∈ es

/-- What comes back for the commands of a file step. What is not asked for is not looked at. -/
structure Answers where
  existence : ExecOutput
  mode : ExecOutput
  owner : ExecOutput
  size : ExecOutput
  content : ExecOutput

/-- Whether there should be a file. -/
def wanted (s : FileStep) : Bool := s.present.getD true

/-- What an existence test says. -/
def found (o : ExecOutput) : Bool := Text.trim o.stdout == "yes"

/-- There is a file, and there should be one. -/
def proceeds (s : FileStep) (a : Answers) : Bool := s.wanted && found a.existence

section Inspections

variable {α : Type} {part : Option α} {commandOf : α → String}
  {failures : α → ExecOutput → Except Error (List String)}

/-- The one command about a property, if anything is wanted of it. -/
def inquiry (target : String) (part : Option α) (commandOf : α → String) (o : ExecOutput) :
    List (Exchange Query.Answer) := (part.map fun a => asked target (commandOf a) o).toList

/-- What is found of a property. -/
def finding (part : Option α) (failures : α → ExecOutput → Except Error (List String))
    (o : ExecOutput) : Except Error (List String) :=
  match part with
  | some a => failures a o
  | none => .ok []

/-- The messages about a property of which anything is wanted. -/
def messages (part : Option α) (failures : α → ExecOutput → List String) (o : ExecOutput) :
    List String := (part.map fun a => failures a o).getD []

theorem finding_ok (part : Option α) (failures : α → ExecOutput → List String) (o : ExecOutput) :
    finding part (fun a o => .ok (failures a o)) o = .ok (messages part failures o) := by
  cases part <;> rfl

theorem messages_eq_nil {failures : α → ExecOutput → List String} {o : ExecOutput} :
    messages part failures o = [] ↔ ∀ a, part = some a → failures a o = [] := by
  cases part <;> simp [messages]

theorem finding_eq_ok {o : ExecOutput} :
    finding part failures o = .ok [] ↔ ∀ a, part = some a → failures a o = .ok [] := by
  cases part <;> simp [finding]

theorem mem_inquiry {o : ExecOutput} {e : Exchange Query.Answer} :
    e ∈ inquiry target part commandOf o ↔
      ∃ a, part = some a ∧ e = asked target (commandOf a) o := by
  cases part <;> simp [inquiry]

theorem inspect_runs (target : String) (part : Option α) (commandOf : α → String)
    (failures : α → ExecOutput → Except Error (List String)) (o : ExecOutput) :
    (inspect target part commandOf failures).run.Runs (inquiry target part commandOf o)
      (finding part failures o) := by
  cases part with
  | none => exact .refl _
  | some a => exact .ask (.refl _)

theorem runs_inspect (h : (inspect target part commandOf failures).run.Runs es r) :
    (∃ e, r = .error e ∧ Lost es) ∨
      ∃ o, es = inquiry target part commandOf o ∧ r = finding part failures o := by
  cases part with
  | none =>
    obtain ⟨rfl, rfl⟩ := runs_done h
    exact .inr ⟨⟨"", "", 0⟩, rfl, rfl⟩
  | some a =>
    rcases Trial.runs_bind h with ⟨e, rfl, hquery⟩ | ⟨fs, gs, o, hquery, hrest, rfl⟩
    · obtain rfl := runs_query hquery
      exact .inl ⟨e, rfl, target, commandOf a, e, List.mem_cons_self⟩
    · obtain rfl := runs_query hquery
      obtain ⟨rfl, rfl⟩ := Trial.runs_except hrest
      exact .inr ⟨o, rfl, rfl⟩

end Inspections

/-- The commands after the existence test. -/
def inquiries (s : FileStep) (target : String) (a : Answers) : List (Exchange Query.Answer) :=
  inquiry target s.permissions (fun _ => statCommand "%a" s.path) a.mode ++
    (inquiry target s.owner (fun owner => statCommand (ownerFormat owner) s.path) a.owner ++
      (inquiry target s.size (fun _ => statCommand "%s" s.path) a.size ++
        inquiry target (if s.wantsContent then some () else none) (fun _ => readCommand s.path)
          a.content))

/-- All commands of a step: the existence test, and the others if there is a file and should be
one. -/
def dialogue (s : FileStep) (target : String) (a : Answers) : List (Exchange Query.Answer) :=
  asked target (existsCommand s.path) a.existence ::
    if s.proceeds a then s.inquiries target a else []

/-- What is found of a file that is there. -/
def findings [Libraries] (s : FileStep) (a : Answers) : Except Error (List String) :=
  (finding (if s.wantsContent then some () else none) (fun _ o => s.contentFailures o)
    a.content).map fun byContent =>
      messages s.permissions (modeFailures s.path) a.mode ++
        (messages s.owner (ownerFailures s.path) a.owner ++
          (messages s.size (sizeFailures s.path) a.size ++ byContent))

/-- What a step comes to. -/
def verdict [Libraries] (s : FileStep) (a : Answers) : Except Error (List String) :=
  if s.proceeds a then s.findings a
  else if s.wanted then .ok ["File " ++ s.path ++ " does not exist"]
  else if found a.existence then .ok ["File " ++ s.path ++ " exists but should not"]
  else .ok []

theorem findings_eq_ok [Libraries] {a : Answers} :
    s.findings a = .ok [] ↔
      (∀ mode, s.permissions = some mode → modeFailures s.path mode a.mode = []) ∧
      (∀ owner, s.owner = some owner → ownerFailures s.path owner a.owner = []) ∧
      (∀ size, s.size = some size → sizeFailures s.path size a.size = []) ∧
      (s.wantsContent → s.contentFailures a.content = .ok []) := by
  simp only [findings, map_eq_ok, List.append_eq_nil_iff, messages_eq_nil]
  constructor
  · rintro ⟨_, hcontent, hmode, howner, hsize, rfl⟩
    refine ⟨hmode, howner, hsize, fun hwants => ?_⟩
    exact finding_eq_ok.mp hcontent () (if_pos hwants)
  · rintro ⟨hmode, howner, hsize, hcontent⟩
    refine ⟨[], finding_eq_ok.mpr fun u hu => hcontent ?_, hmode, howner, hsize, rfl⟩
    exact (Option.ite_none_right_eq_some.mp hu).1

theorem verdict_eq_ok [Libraries] {a : Answers} :
    s.verdict a = .ok [] ↔
      found a.existence = s.wanted ∧ (s.wanted → s.findings a = .ok []) := by
  unfold verdict proceeds
  cases s.wanted <;> cases found a.existence <;> simp

/-- A property of which messages are found, whatever comes back, is inspected in one run. -/
theorem messages_runs {α : Type} (target : String) (part : Option α) (commandOf : α → String)
    (failures : α → ExecOutput → List String) (o : ExecOutput) :
    (inspect target part commandOf fun a o => .ok (failures a o)).run.Runs
      (inquiry target part commandOf o) (.ok (messages part failures o)) := by
  rw [← finding_ok]
  exact inspect_runs ..

theorem runExisting_runs [Libraries] (s : FileStep) (target : String) (a : Answers) :
    (s.runExisting target).run.Runs (s.inquiries target a) (s.findings a) := by
  refine Trial.runs_bind_ok (messages_runs _ _ _ _ a.mode) ?_
  refine Trial.runs_bind_ok (messages_runs _ _ _ _ a.owner) ?_
  refine Trial.runs_bind_ok (messages_runs _ _ _ _ a.size) ?_
  exact Trial.runs_map (inspect_runs _ _ _ _ a.content) _

/-- What a step does after the existence test. -/
def continued [Libraries] (s : FileStep) (target : String) (o : ExecOutput) : Trial (List String) :=
  if found o != s.wanted then
    pure [if s.wanted then "File " ++ s.path ++ " does not exist"
      else "File " ++ s.path ++ " exists but should not"]
  else if found o then s.runExisting target
  else pure []

theorem run_eq [Libraries] (htarget : settings.target s.container "file" = .ok target) :
    s.run settings = Run.exec target (existsCommand s.path) limit >>= s.continued target := by
  unfold run
  rw [htarget]
  rfl

theorem continued_runs [Libraries] (s : FileStep) (target : String) (a : Answers) :
    (s.continued target a.existence).run.Runs
      (if s.proceeds a then s.inquiries target a else []) (s.verdict a) := by
  unfold continued verdict proceeds
  cases hwanted : s.wanted <;> cases hfound : found a.existence
  case true.true => exact s.runExisting_runs target a
  all_goals exact .refl _

theorem run_runs [Libraries] (htarget : settings.target s.container "file" = .ok target)
    (a : Answers) :
    (s.run settings).run.Runs (s.dialogue target a) (s.verdict a) := by
  rw [run_eq htarget]
  exact .ask (s.continued_runs target a)

theorem Lost.append (h : Lost es) (fs : List (Exchange Query.Answer)) : Lost (fs ++ es) := by
  obtain ⟨target, command, e, he⟩ := h
  exact ⟨target, command, e, List.mem_append_right fs he⟩

/-- After a property of which messages are found, whatever comes back, the step goes on. -/
theorem runs_messages_bind {α β : Type} {part : Option α} {commandOf : α → String}
    {failures : α → ExecOutput → List String} {f : List String → Trial β} {b : Except Error β}
    (h : (inspect target part commandOf (fun a o => .ok (failures a o)) >>= f).run.Runs es b) :
    (∃ e, b = .error e ∧ Lost es) ∨
      ∃ o fs, (f (messages part failures o)).run.Runs fs b ∧
        es = inquiry target part commandOf o ++ fs := by
  rcases Trial.runs_bind h with ⟨e, rfl, hinspect⟩ | ⟨fs, gs, found, hinspect, hrest, rfl⟩
  · rcases runs_inspect hinspect with ⟨e, -, hlost⟩ | ⟨o, -, he⟩
    · exact .inl ⟨_, rfl, hlost⟩
    · rw [finding_ok] at he
      cases he
  · rcases runs_inspect hinspect with ⟨e, he, -⟩ | ⟨o, rfl, ho⟩
    · cases he
    · rw [finding_ok] at ho
      cases ho
      exact .inr ⟨o, gs, hrest, rfl⟩

variable [Libraries]

theorem runs_runExisting (h : (s.runExisting target).run.Runs es r) (existence : ExecOutput) :
    (∃ e, r = .error e ∧ Lost es) ∨
      ∃ a : Answers, a.existence = existence ∧ es = s.inquiries target a := by
  rcases runs_messages_bind h with hlost | ⟨mode, es, howner, rfl⟩
  · exact .inl hlost
  rcases runs_messages_bind howner with ⟨e, he, hlost⟩ | ⟨owner, es, hsize, rfl⟩
  · exact .inl ⟨e, he, hlost.append _⟩
  rcases runs_messages_bind hsize with ⟨e, he, hlost⟩ | ⟨size, es, hlast, rfl⟩
  · exact .inl ⟨e, he, (hlost.append _).append _⟩
  rcases Trial.runs_bind hlast with ⟨e, rfl, hcontent⟩ | ⟨es, fs, byContent, hcontent, hdone, rfl⟩
  · rcases runs_inspect hcontent with ⟨_, -, hlost⟩ | ⟨content, rfl, -⟩
    · exact .inl ⟨e, rfl, ((hlost.append _).append _).append _⟩
    · exact .inr ⟨⟨existence, mode, owner, size, content⟩, rfl, rfl⟩
  · obtain ⟨rfl, -⟩ := runs_done hdone
    rw [List.append_nil]
    rcases runs_inspect hcontent with ⟨e, he, -⟩ | ⟨content, rfl, -⟩
    · cases he
    · exact .inr ⟨⟨existence, mode, owner, size, content⟩, rfl, rfl⟩

theorem runs_continued {o : ExecOutput} (h : (s.continued target o).run.Runs es r) :
    (∃ e, r = .error e ∧ Lost es) ∨
      ∃ a : Answers, a.existence = o ∧
        es = if s.proceeds a then s.inquiries target a else [] := by
  unfold continued at h
  unfold proceeds
  cases hwanted : s.wanted <;> cases hfound : found o <;> rw [hwanted, hfound] at h
  case true.true =>
    rcases runs_runExisting h o with hlost | ⟨a, rfl, rfl⟩
    · exact .inl hlost
    · exact .inr ⟨a, rfl, by simp [hfound]⟩
  all_goals
    obtain ⟨rfl, -⟩ := runs_done h
    exact .inr ⟨⟨o, o, o, o, o⟩, rfl, by simp [hfound]⟩

/-- A run of a step in which no command is lost asks for what its answers make it ask for. -/
theorem runs_run (htarget : settings.target s.container "file" = .ok target)
    (h : (s.run settings).run.Runs es r) :
    (∃ e, r = .error e ∧ Lost es) ∨ ∃ a, es = s.dialogue target a ∧ r = s.verdict a := by
  have hrun := h
  rw [run_eq htarget] at h
  rcases Trial.runs_bind h with ⟨e, rfl, hquery⟩ | ⟨fs, gs, o, hquery, hrest, rfl⟩
  · obtain rfl := runs_query hquery
    exact .inl ⟨e, rfl, target, existsCommand s.path, e, List.mem_cons_self⟩
  · obtain rfl := runs_query hquery
    rcases runs_continued hrest with ⟨e, he, hlost⟩ | ⟨a, rfl, rfl⟩
    · exact .inl ⟨e, he, hlost.append _⟩
    · exact .inr ⟨a, rfl, runs_unique (run_runs htarget a) hrun⟩

end Assay.FileStep

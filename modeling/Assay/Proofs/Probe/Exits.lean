import Assay.Libraries.BuiltIn
import Assay.Proofs.Probe.Dialogue
import Assay.Proofs.Text.Lines

namespace Assay.FileStep

open Script (Exchange runs_unique)

variable {s : FileStep} {settings : StepSettings} {target path command : String} {o : ExecOutput}

/-- What has a message for each failed command has none only for one that succeeded. -/
theorem success_of_eq_nil {message : String} {rest : List String}
    (h : (if !o.success then [message] else rest) = []) : o.success := by
  cases hsuccess : o.success with
  | true => rfl
  | false => simp [hsuccess] at h

theorem success_of_contentFailures [Libraries] (h : s.contentFailures o = .ok []) : o.success := by
  unfold contentFailures at h
  cases hsuccess : o.success with
  | true => rfl
  | false => simp [hsuccess] at h

theorem sizeFailures_eq_nil {c : Comparison} :
    sizeFailures path c o = [] ↔
      ∃ size, Double.read? (Text.trimChars o.stdout.toList) = some size ∧ c.holds size := by
  unfold sizeFailures
  cases Double.read? (Text.trimChars o.stdout.toList) <;> simp

/-- The same answers with other exit codes of the two commands whose exit codes are not looked
at. -/
def Answers.withExits (a : Answers) (existence size : Int) : Answers :=
  { a with
    existence := { a.existence with exitCode := existence }
    size := { a.size with exitCode := size } }

theorem verdict_withExits [Libraries] (s : FileStep) (a : Answers) (existence size : Int) :
    s.verdict (a.withExits existence size) = s.verdict a := rfl

/-- What an output without success can still be accepted for: what was printed is right. -/
def Excused (s : FileStep) (command : String) (o : ExecOutput) : Prop :=
  command = existsCommand s.path ∧ found o = s.wanted ∨
    command = statCommand "%s" s.path ∧ ∃ c size, s.size = some c ∧
      Double.read? (Text.trimChars o.stdout.toList) = some size ∧ c.holds size

theorem exits_of_verdict [Libraries] {a : Answers} (h : s.verdict a = .ok []) :
    ∀ e ∈ s.dialogue target a, ∃ command o, e = asked target command o ∧
      (o.success ∨ s.Excused command o) := by
  obtain ⟨hfound, hfindings⟩ := verdict_eq_ok.mp h
  intro e he
  rcases List.mem_cons.mp he with rfl | he
  · exact ⟨_, _, rfl, .inr (.inl ⟨rfl, hfound⟩)⟩
  cases hproceeds : s.proceeds a with
  | false =>
    rw [hproceeds] at he
    cases he
  | true =>
    rw [hproceeds, if_pos rfl] at he
    have hwanted : s.wanted := (Bool.and_eq_true_iff.mp hproceeds).1
    obtain ⟨hmode, howner, hsize, hcontent⟩ := findings_eq_ok.mp (hfindings hwanted)
    simp only [inquiries, List.mem_append, mem_inquiry] at he
    rcases he with ⟨mode, hpart, rfl⟩ | ⟨owner, hpart, rfl⟩ | ⟨c, hpart, rfl⟩ | ⟨u, hpart, rfl⟩
    · exact ⟨_, _, rfl, .inl (success_of_eq_nil (hmode mode hpart))⟩
    · exact ⟨_, _, rfl, .inl (success_of_eq_nil (howner owner hpart))⟩
    · obtain ⟨size, hread, hholds⟩ := sizeFailures_eq_nil.mp (hsize c hpart)
      exact ⟨_, _, rfl, .inr (.inr ⟨rfl, c, size, hpart, hread, hholds⟩)⟩
    · have hwants : s.wantsContent := (Option.ite_none_right_eq_some.mp hpart).1
      exact ⟨_, _, rfl, .inl (success_of_contentFailures (hcontent hwants))⟩

theorem silent_exits (hexcused : s.Excused command o) (hsilent : Text.trim o.stdout = "") :
    s.wanted = false := by
  rcases hexcused with ⟨-, hfound⟩ | ⟨-, c, size, -, hread, -⟩
  · rw [← hfound, found, hsilent]
    rfl
  · rw [← Text.toList_trim, hsilent] at hread
    cases hread

/-- Every command of a step that passes came back with success, but for an existence test that says
what is wanted and a size that is as wanted: their exit codes are not looked at, and any others
would do. A command that fails and prints nothing passes only as the test for a file that should not
be there. -/
theorem passed_exits [Libraries] (s : FileStep) (settings : StepSettings) {target : String}
    (htarget : settings.target s.container "file" = .ok target) :
    (∀ es, (s.run settings).run.Runs es (.ok []) →
      ∀ e ∈ es, ∃ command o, e = asked target command o ∧ (o.success ∨ s.Excused command o)) ∧
    (∀ es, (s.run settings).run.Runs es (.ok []) →
      ∀ command o, asked target command o ∈ es → ¬ o.success → Text.trim o.stdout = "" →
        s.wanted = false ∧ command = existsCommand s.path ∧ es = [asked target command o]) ∧
    ∀ a r existence size, (s.run settings).run.Runs (s.dialogue target a) r →
      (s.run settings).run.Runs (s.dialogue target (a.withExits existence size)) r := by
  have hpassed : ∀ es, (s.run settings).run.Runs es (.ok []) →
      ∃ a, es = s.dialogue target a ∧ s.verdict a = .ok [] := by
    intro es h
    rcases runs_run htarget h with ⟨e, he, -⟩ | ⟨a, rfl, hverdict⟩
    · cases he
    · exact ⟨a, rfl, hverdict.symm⟩
  refine ⟨fun es h => ?_, fun es h command o ho hfailed hsilent => ?_,
    fun a r existence size h => ?_⟩
  · obtain ⟨a, rfl, hverdict⟩ := hpassed es h
    exact exits_of_verdict hverdict
  · obtain ⟨a, rfl, hverdict⟩ := hpassed es h
    obtain ⟨command', o', hasked, hexit⟩ := exits_of_verdict hverdict _ ho
    cases hasked
    have hwanted := silent_exits (hexit.resolve_left hfailed) hsilent
    have hproceeds : s.proceeds a = false := by rw [proceeds, hwanted, Bool.false_and]
    rw [dialogue, hproceeds, if_neg Bool.false_ne_true] at ho ⊢
    cases List.mem_singleton.mp ho
    exact ⟨hwanted, rfl, rfl⟩
  · rw [← runs_unique h (run_runs htarget a), ← verdict_withExits s a existence size]
    exact run_runs htarget _

/-- A file of which the size is wanted. -/
def sizeStep : FileStep :=
  ⟨"/data", none, none, none, none, some ⟨.greater, .ofNat 100⟩, none, none, none, none⟩

/-- A file that should not be there. -/
def goneStep : FileStep := ⟨"/x", none, some false, none, none, none, none, none, none, none⟩

def appSettings : StepSettings := ⟨"http://localhost", none, some "app"⟩

theorem passed_exits_size :
    let printed : Answers :=
      ⟨⟨"yes\n", "", 0⟩, ⟨"", "", 0⟩, ⟨"", "", 0⟩, ⟨"120\n", "", 0⟩, ⟨"", "", 0⟩⟩
    appSettings.target sizeStep.container "file" = .ok "app" ∧
      (sizeStep.run appSettings).run.Runs (sizeStep.dialogue "app" (printed.withExits 127 1))
        (.ok []) := by
  intro printed
  have hsize : sizeFailures "/data" ⟨.greater, .ofNat 100⟩ printed.size = [] := by decide +kernel
  have hverdict : sizeStep.verdict printed = .ok [] := by
    refine verdict_eq_ok.mpr ⟨by decide +kernel, fun _ => findings_eq_ok.mpr ?_⟩
    refine ⟨nofun, nofun, fun c hc => ?_, fun hwants => absurd hwants (by decide)⟩
    cases hc
    exact hsize
  have htarget : appSettings.target sizeStep.container "file" = .ok "app" := rfl
  have hrun := run_runs htarget printed
  rw [hverdict] at hrun
  exact ⟨htarget, (passed_exits sizeStep appSettings htarget).2.2 printed _ 127 1 hrun⟩

/-- A container that does nothing but fail has no file, as wanted. -/
theorem failed_command_passes :
    ¬ ∀ (s : FileStep) (settings : StepSettings) (es : List (Exchange Query.Answer))
      (r : Except Error (List String)), (s.run settings).run.Runs es r →
      (∃ target command o, asked target command o ∈ es ∧ o.exitCode ≠ 0) → r ≠ .ok [] := by
  intro h
  let dead : ExecOutput := ⟨"", "no such container", 127⟩
  have htarget : appSettings.target goneStep.container "file" = .ok "app" := rfl
  have hrun := run_runs htarget ⟨dead, dead, dead, dead, dead⟩
  have hverdict : goneStep.verdict ⟨dead, dead, dead, dead, dead⟩ = .ok [] :=
    verdict_eq_ok.mpr ⟨by decide +kernel, fun hwanted => absurd hwanted (by decide)⟩
  refine h _ _ _ _ hrun ⟨"app", existsCommand "/x", dead, ?_, by decide⟩ hverdict
  exact List.mem_cons_self

end Assay.FileStep

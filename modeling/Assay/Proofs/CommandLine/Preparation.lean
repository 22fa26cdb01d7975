import Assay.CommandLine.Plan
import Assay.Proofs.Script.Trials

namespace Assay

open Script (Exchange runs_bind runs_done runs_query)

section Files

variable {α β : Type} {es : List (Exchange FileQuery.Answer)}

theorem FileRun.runs_forEach {f : α → FileRun β} {as : List α} {bs : List β}
    (h : (FileRun.forEach f as).Runs es bs) :
    List.Forall₂ (fun a b => ∃ own, own ⊆ es ∧ (f a).Runs own b) as bs := by
  induction as generalizing es bs with
  | nil =>
    obtain ⟨-, rfl⟩ := runs_done h
    exact .nil
  | cons a as ih =>
    obtain ⟨own, rest, b, hown, hrest, rfl⟩ := runs_bind h
    obtain ⟨others, done, more, hothers, hdone, rfl⟩ := runs_bind hrest
    obtain ⟨rfl, rfl⟩ := runs_done hdone
    have hmore : List.Forall₂ (fun a b => ∃ fs, fs ⊆ own ++ (others ++ []) ∧ (f a).Runs fs b)
        as more := by
      refine (ih hothers).imp ?_
      rintro a b ⟨fs, hfs, hrun⟩
      exact ⟨fs, fun e he => by simp [hfs he], hrun⟩
    exact .cons ⟨own, List.subset_append_left own _, hown⟩ hmore

theorem runs_findSuiteFiles {paths files : List String}
    (h : (findSuiteFiles paths).Runs es (.ok files)) :
    files ≠ [] ∧ ∃ places, collectSuiteFiles (paths.zip places) = .ok files ∧
      List.Forall₂ (fun path place => ⟨.look path, place⟩ ∈ es) paths places := by
  obtain ⟨looked, done, places, hlooked, hdone, rfl⟩ := runs_bind h
  have hplaces : List.Forall₂ (fun path place => ⟨.look path, place⟩ ∈ looked ++ done) paths
      places := by
    refine (FileRun.runs_forEach hlooked).imp ?_
    rintro path place ⟨own, hown, hrun⟩
    have hmem : ⟨.look path, place⟩ ∈ own := by
      rw [runs_query hrun]
      exact List.mem_singleton_self _
    exact List.mem_append_left done (hown hmem)
  cases hcollect : collectSuiteFiles (paths.zip places) with
  | error e =>
    simp only [hcollect] at hdone
    cases (runs_done hdone).2
  | ok found =>
    cases found with
    | nil =>
      simp only [hcollect] at hdone
      cases (runs_done hdone).2
    | cons file others =>
      simp only [hcollect] at hdone
      cases (runs_done hdone).2
      exact ⟨List.cons_ne_nil file others, places, hcollect, hplaces⟩

theorem runs_findSuiteFiles_error {paths : List String} {e : Error}
    (h : (findSuiteFiles paths).Runs es (.error e)) :
    ∃ places, collectSuiteFiles (paths.zip places) = .error e ∨
      collectSuiteFiles (paths.zip places) = .ok [] ∧ e = .noSuites := by
  obtain ⟨looked, done, places, -, hdone, rfl⟩ := runs_bind h
  refine ⟨places, ?_⟩
  cases hcollect : collectSuiteFiles (paths.zip places) with
  | error e' =>
    simp only [hcollect] at hdone
    cases (runs_done hdone).2
    exact .inl rfl
  | ok found =>
    cases found with
    | nil =>
      simp only [hcollect] at hdone
      cases (runs_done hdone).2
      exact .inr ⟨rfl, rfl⟩
    | cons file others =>
      simp only [hcollect] at hdone
      cases (runs_done hdone).2

theorem Suite.runs_load [Libraries] {path : String} {s : Except Error Suite}
    (h : (Suite.load path).Runs es s) :
    ∃ content, ⟨.read path, content⟩ ∈ es ∧ s = Suite.ofFile path content := by
  obtain ⟨read, done, content, hread, hdone, rfl⟩ := runs_bind h
  obtain ⟨rfl, rfl⟩ := runs_done hdone
  rw [runs_query hread]
  exact ⟨content, List.mem_cons_self, rfl⟩

theorem Script.runs_run {Q : Type} {A : Q → Type} (answer : (q : Q) → A q) (s : Script A α) :
    ∃ es, s.Runs es (Id.run (s.run fun q => pure (answer q))) := by
  induction s with
  | done a => exact ⟨[], .refl _⟩
  | ask q next ih =>
    obtain ⟨es, h⟩ := ih (answer q)
    exact ⟨⟨q, answer q⟩ :: es, .ask h⟩

end Files

namespace CommandLine

/-- What is read before suites are run: which files the arguments name, at least one of them, and
for each file the suite in it or why there is none. -/
structure Prepared [Libraries] (a : RunArguments) (env : List (String × String))
    (es : List (Exchange FileQuery.Answer)) (files : List String)
    (suites : List (Except Error Suite)) (plan : Plan) : Prop where
  nonempty : files ≠ []
  found : ∃ places, collectSuiteFiles (a.paths.zip places) = .ok files ∧
    List.Forall₂ (fun path place => ⟨.look path, place⟩ ∈ es) a.paths places
  loads : List.Forall₂
    (fun file s => ∃ content, ⟨.read file, content⟩ ∈ es ∧ s = Suite.ofFile file content)
    files suites
  plan : ∃ c, plan = Plan.ofSuites c a env suites

theorem runs_prepare [Libraries] {a : RunArguments} {configuration : Option String}
    {env : List (String × String)} {es : List (Exchange FileQuery.Answer)} {plan : Plan}
    (h : (prepare a configuration env).run.Runs es (.ok plan)) :
    ∃ files suites, Prepared a env es files suites plan := by
  rcases Trial.runs_bind h with ⟨_, herror, -⟩ | ⟨settings, rest, ⟨c, source⟩, -, hrest, rfl⟩
  · cases herror
  rcases Trial.runs_bind hrest with ⟨_, herror, -⟩ | ⟨looked, loading, files, hfiles, hloading, rfl⟩
  · cases herror
  rcases Trial.runs_bind hloading with ⟨_, herror, -⟩ | ⟨opened, done, suites, hsuites, hdone, rfl⟩
  · cases herror
  obtain ⟨_, hok, hloads⟩ := Trial.runs_lift hsuites
  cases hok
  obtain ⟨rfl, hplan⟩ := runs_done hdone
  cases hplan
  obtain ⟨hsome, places, hcollect, hplaces⟩ := runs_findSuiteFiles hfiles
  refine ⟨files, suites, hsome, ⟨places, hcollect, ?_⟩, ?_, c.override a, rfl⟩
  · refine hplaces.imp ?_
    intro path place hmem
    simp [hmem]
  · refine (FileRun.runs_forEach hloads).imp ?_
    rintro file s ⟨own, hown, hrun⟩
    obtain ⟨content, hmem, rfl⟩ := Suite.runs_load hrun
    have hopened := hown hmem
    exact ⟨content, by simp [hopened], rfl⟩

/-- Nothing but the settings and the paths can keep a run command from its suites. -/
theorem runs_prepare_error [Libraries] {a : RunArguments} {configuration : Option String}
    {env : List (String × String)} {es : List (Exchange FileQuery.Answer)} {e : Error}
    (h : (prepare a configuration env).run.Runs es (.error e)) :
    (∃ own, (Configuration.load configuration env).run.Runs own (.error e)) ∨
      ∃ places, collectSuiteFiles (a.paths.zip places) = .error e ∨
        collectSuiteFiles (a.paths.zip places) = .ok [] ∧ e = .noSuites := by
  rcases Trial.runs_bind h with ⟨_, herror, hsettings⟩ |
    ⟨settings, rest, ⟨c, source⟩, -, hrest, rfl⟩
  · cases herror
    exact .inl ⟨_, hsettings⟩
  rcases Trial.runs_bind hrest with ⟨_, herror, hfiles⟩ |
    ⟨looked, loading, files, -, hloading, rfl⟩
  · cases herror
    exact .inr (runs_findSuiteFiles_error hfiles)
  rcases Trial.runs_bind hloading with ⟨_, -, hsuites⟩ | ⟨opened, done, suites, -, hdone, rfl⟩
  · obtain ⟨_, hok, -⟩ := Trial.runs_lift hsuites
    cases hok
  · cases (runs_done hdone).2

theorem loadFaults_eq_nil {suites : List (Except Error Suite)} :
    loadFaults suites = [] ↔ ∀ s ∈ suites, ∃ suite, s = .ok suite := by
  rw [loadFaults, List.filterMap_eq_nil_iff]
  refine forall₂_congr fun s _ => ?_
  cases s <;> simp

end CommandLine

end Assay

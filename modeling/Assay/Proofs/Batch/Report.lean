import Assay.Proofs.Batch.Pool
import Assay.Proofs.Batch.Schedule
import Assay.Proofs.Runner.Suite

namespace Assay

open Script (Exchange Announces share announces_bind runs_bind runs_done)
open BatchExchange

/-- The summary of a suite whose end is told. -/
def Query.summary? (q : Query) : Option Summary := q.event?.bind Event.summary?

theorem filterMap_eventsOf (es : List (Exchange Query.Answer)) :
    (eventsOf es).filterMap Event.summary? = es.filterMap fun e => e.1.summary? := by
  rw [eventsOf, List.filterMap_filterMap]
  rfl

namespace Runner

variable [Libraries] {r : Runner} {e : BatchEntry} {ctx left : Context}
  {es : List (Exchange Query.Answer)} {summary : Summary}

theorem runApart_announces (r : Runner) (ctx : Context) (e : BatchEntry) :
    Announces Query.summary? (r.runApart ctx e) := by
  have hwork := (r.work_tells e.suite e.options ctx).mono (R := fun q => q.summary? = none) <| by
    intro q hq
    cases hevent : q.event? with
    | none => simp [Query.summary?, hevent]
    | some event => simpa [Query.summary?, hevent] using (hq event hevent).2
  rw [runApart, runEntry, runSuite_eq]
  simp only [Script.bind_assoc]
  refine announces_bind hwork fun (start, tally, left) => ?_
  exact .more rfl fun stop => .last rfl fun _ => rfl

theorem runApart_runs (h : (r.runApart ctx e).Runs es summary) :
    ∃ left, (r.runSuite e.suite e.options ctx).Runs es (summary, left) := by
  obtain ⟨fs, gs, ⟨s, left⟩, hrun, hdone, rfl⟩ := runs_bind h
  obtain ⟨rfl, rfl⟩ := runs_done hdone
  exact ⟨left, by rwa [List.append_nil]⟩

theorem runs_runApart (h : (r.runSuite e.suite e.options ctx).Runs es (summary, left)) :
    (r.runApart ctx e).Runs es summary := by
  have hrun : (r.runApart ctx e).Runs (es ++ []) summary := Script.Runs.bind h (.refl _)
  rwa [List.append_nil] at hrun

theorem runSuite_summary (h : (r.runSuite e.suite e.options ctx).Runs es (summary, left)) :
    (eventsOf es).filterMap Event.summary? = [summary] := by
  rw [filterMap_eventsOf]
  rcases (r.runApart_announces ctx e).of_reaches (runs_runApart h) with ⟨hmore, -⟩ | ⟨s, hs, hes⟩
  · cases hmore
  · cases hs
    exact hes

end Runner

/-- Runs of suites one after another, each on the context that the one before it left. -/
inductive RunsInTurn [Libraries] (r : Runner) : List BatchEntry → Context →
    List (List (Exchange Query.Answer)) → List Summary → Context → Prop
  | nil (ctx : Context) : RunsInTurn r [] ctx [] [] ctx
  | cons {e : BatchEntry} {entries : List BatchEntry} {ctx middle left : Context}
      {es : List (Exchange Query.Answer)} {ess : List (List (Exchange Query.Answer))}
      {summary : Summary} {summaries : List Summary}
      (first : (r.runSuite e.suite e.options ctx).Runs es (summary, middle))
      (rest : RunsInTurn r entries middle ess summaries left) :
      RunsInTurn r (e :: entries) ctx (es :: ess) (summary :: summaries) left

namespace RunsInTurn

variable [Libraries] {r : Runner} {entries : List BatchEntry} {ctx left : Context}
  {ess : List (List (Exchange Query.Answer))} {summaries : List Summary}

theorem of_runs {es : List (Exchange Query.Answer)}
    (h : (r.runInTurn entries ctx).Runs es (summaries, left)) :
    ∃ ess, es = ess.flatten ∧ RunsInTurn r entries ctx ess summaries left := by
  induction entries generalizing ctx es summaries with
  | nil =>
    obtain ⟨rfl, heq⟩ := runs_done h
    cases heq
    exact ⟨[], rfl, .nil _⟩
  | cons e entries ih =>
    obtain ⟨fs, gs, ⟨summary, middle⟩, hfirst, hmore, rfl⟩ := runs_bind h
    obtain ⟨gs, ks, ⟨others, left'⟩, hrest, hdone, rfl⟩ := runs_bind hmore
    obtain ⟨rfl, heq⟩ := runs_done hdone
    cases heq
    obtain ⟨ess, rfl, hess⟩ := ih hrest
    exact ⟨fs :: ess, by simp, .cons hfirst hess⟩

theorem length (h : RunsInTurn r entries ctx ess summaries left) :
    summaries.length = entries.length := by
  induction h with
  | nil => rfl
  | cons first rest ih => rw [List.length_cons, List.length_cons, ih]

theorem told (h : RunsInTurn r entries ctx ess summaries left) :
    (eventsOf ess.flatten).filterMap Event.summary? = summaries := by
  induction h with
  | nil => rfl
  | cons first rest ih =>
    rw [List.flatten_cons, eventsOf_append, List.filterMap_append, ih,
      Runner.runSuite_summary first]
    rfl

end RunsInTurn

/-- A suite that has told that it starts, and not yet that it has ended. -/
def isOpen (es : List (Exchange Query.Answer)) : Bool :=
  (eventsOf es).any Event.isStart && !(eventsOf es).any fun event => event.summary?.isSome

/-- What holds of a batch at every moment, by the exchanges so far. -/
structure BatchSafe [Libraries] (r : Runner) (batch : List BatchEntry) (limit : Option Nat)
    (ctx : Context) (es : List BatchExchange) : Prop where
  order : ∃ early late, es = early ++ late ∧ (∀ e ∈ early, e.1 = none) ∧
    ∀ e ∈ late, ∃ i < (parallelGroup batch).length, e.1 = some i
  inTurn : ∃ rest, (r.runInTurn (sequentialGroup batch) ctx).Reaches (share none es) rest
  apart : (∃ e ∈ es, e.1 ≠ none) → ∃ first left,
    (r.runInTurn (sequentialGroup batch) ctx).Runs (share none es) (first, left) ∧
    ∀ (i : Nat) (e : BatchEntry), (parallelGroup batch)[i]? = some e →
      ∃ rest, (r.runApart left e).Reaches (share (some i) es) rest
  inFlight : (List.range (parallelGroup batch).length).countP
    (fun i => isOpen (share (some i) es)) ≤ slots limit (parallelGroup batch)

/-- What holds of a batch that has ended: first the suites of its sequential group have run, and
then those of its parallel group, each once and from beginning to end, with these summaries. -/
structure BatchReport [Libraries] (r : Runner) (batch : List BatchEntry) (ctx : Context)
    (es : List BatchExchange) (first second : List Summary) (left : Context) : Prop where
  inTurn : ∃ ess, share none es = ess.flatten ∧
    RunsInTurn r (sequentialGroup batch) ctx ess first left
  apart : ∃ results, results.length = (parallelGroup batch).length ∧ second.Perm results ∧
    ∀ (i : Nat) (e : BatchEntry) (summary : Summary), (parallelGroup batch)[i]? = some e →
      results[i]? = some summary → ∃ own,
        (r.runSuite e.suite e.options left).Runs (share (some i) es) (summary, own)
  told : (eventsOf (es.map Prod.snd)).filterMap Event.summary? = first ++ second
  length : (first ++ second).length = batch.length

section Reports

variable [Libraries] {r : Runner} {batch : List BatchEntry} {limit : Option Nat} {ctx : Context}
  {early : List (Exchange Query.Answer)} {late : List (Nat × Exchange Query.Answer)}
  {first : List Summary} {left : Context} {c : Crew Query.Answer Summary}

theorem isOpen_of_runApart {e : BatchEntry} {es : List (Exchange Query.Answer)} {summary : Summary}
    (h : (r.runApart ctx e).Runs es summary) : isOpen es = false := by
  obtain ⟨left, hrun⟩ := Runner.runApart_runs h
  have htold := Runner.runSuite_summary hrun
  have hend : (eventsOf es).any fun event => event.summary?.isSome := by
    have hmem : summary ∈ (eventsOf es).filterMap Event.summary? := by simp [htold]
    obtain ⟨event, hevent, hs⟩ := List.mem_filterMap.mp hmem
    exact List.any_eq_true.mpr ⟨event, hevent, by simp [hs]⟩
  simp [isOpen, hend]

theorem batchSafe_inTurn {rest : Run (List Summary × Context)}
    (reached : (r.runInTurn (sequentialGroup batch) ctx).Reaches early rest) :
    BatchSafe r batch limit ctx (ofTurn early) where
  order := ⟨ofTurn early, [], by simp, fun _ => fst_of_mem_ofTurn, by simp⟩
  inTurn := ⟨rest, by simpa using reached⟩
  apart := by
    rintro ⟨e, he, hne⟩
    exact absurd (fst_of_mem_ofTurn he) hne
  inFlight := by
    have hnone : (List.range (parallelGroup batch).length).countP
        (fun i => isOpen (share (some i) (ofTurn early))) = 0 :=
      List.countP_eq_zero.mpr fun i _ => by simp [isOpen]
    omega

theorem batchSafe_together
    (ran : (r.runInTurn (sequentialGroup batch) ctx).Runs early (first, left))
    (h : Crew.Sound (slots limit (parallelGroup batch))
      ((parallelGroup batch).map (r.runApart left)) late c) :
    BatchSafe r batch limit ctx (ofTurn early ++ ofGroup late) where
  order := by
    refine ⟨_, _, rfl, fun _ => fst_of_mem_ofTurn, fun e he => ?_⟩
    obtain ⟨f, hf, heq⟩ := fst_of_mem_ofGroup he
    exact ⟨f.1, by simpa using h.places f hf, heq⟩
  inTurn := ⟨_, by simpa using ran⟩
  apart := by
    refine fun _ => ⟨first, left, by simpa using ran, fun i e he => ?_⟩
    have hscript : ((parallelGroup batch).map (r.runApart left))[i]? =
        some (r.runApart left e) := by rw [List.getElem?_map, he, Option.map_some]
    have hi : i < c.tasks.length := by
      rw [h.length]
      exact (List.getElem?_eq_some_iff.mp hscript).1
    simp only [Script.share_append, share_some_ofTurn, List.nil_append, share_some_ofGroup]
    have hstands := h.stands i _ _ hscript (List.getElem?_eq_getElem hi)
    cases htask : c.tasks[i] with
    | waiting s =>
      rw [htask] at hstands
      rw [hstands.2]
      exact ⟨_, .refl _⟩
    | running s =>
      rw [htask] at hstands
      exact ⟨_, hstands.1⟩
    | finished a =>
      rw [htask] at hstands
      exact ⟨_, hstands⟩
  inFlight := by
    have hle := h.countP_le isOpen rfl fun s hs es a hrun => by
      obtain ⟨e, -, rfl⟩ := List.mem_map.mp hs
      exact isOpen_of_runApart hrun
    simpa using hle

theorem batchReport_of_isOver
    (ran : (r.runInTurn (sequentialGroup batch) ctx).Runs early (first, left))
    (course : Course (Crew.Step (slots limit (parallelGroup batch))) (BatchState.crew r batch left)
      late c) (hover : c.isOver) :
    BatchReport r batch ctx (ofTurn early ++ ofGroup late) first c.ended left := by
  obtain ⟨ess, hearly, hess⟩ := RunsInTurn.of_runs ran
  obtain ⟨results, hlength, hperm, hruns⟩ :=
    (Crew.sound_of_course course).results_of_isOver hover
  have hended : c.ended = late.filterMap fun e => e.2.1.summary? := by
    refine Crew.ended_of_course course fun s hs => ?_
    obtain ⟨e, -, rfl⟩ := List.mem_map.mp hs
    exact r.runApart_announces left e
  rw [List.length_map] at hlength
  exact
    { inTurn := ⟨ess, by simpa using hearly, hess⟩
      apart := by
        refine ⟨results, hlength, hperm, fun i e summary he hs => ?_⟩
        have hscript : ((parallelGroup batch).map (r.runApart left))[i]? =
            some (r.runApart left e) := by rw [List.getElem?_map, he, Option.map_some]
        simpa using Runner.runApart_runs (hruns i _ summary hscript hs)
      told := by
        rw [List.map_append, map_snd_ofTurn, map_snd_ofGroup, eventsOf_append,
          List.filterMap_append, hearly, hess.told, filterMap_eventsOf, List.filterMap_map, hended]
        rfl
      length := by
        rw [List.length_append, hess.length, hperm.length_eq, hlength, length_groups] }

theorem batchSafe_of_comes {es : List BatchExchange} {s : BatchState}
    (h : BatchState.Comes r batch limit ctx es s) : BatchSafe r batch limit ctx es := by
  cases BatchState.stands_of_comes h with
  | inTurn reached => exact batchSafe_inTurn reached
  | together ran course => exact batchSafe_together ran (Crew.sound_of_course course)

theorem batchReport_of_comes {es : List BatchExchange} {s : BatchState} {summaries : List Summary}
    (h : BatchState.Comes r batch limit ctx es s) (hout : s.output? = some (summaries, left)) :
    ∃ first second, summaries = first ++ second ∧ BatchReport r batch ctx es first second left := by
  obtain ⟨early, late, first, c, rfl, ran, course, hover, rfl⟩ := BatchState.of_output h hout
  exact ⟨first, c.ended, rfl, batchReport_of_isOver ran course hover⟩

/-- A batch that is played to its end in a world has gone one of the ways that it may go, and the
world has kept its account of that. -/
theorem playBatch_comes {σ : Type} {respond : Responder Query.Answer σ}
    {k : Account Query.Answer σ Event} (keeps : respond.Keeps k) {w w' : σ}
    {summaries : List Summary} {now : Nat}
    (h : Rehearsal.playBatch respond r batch limit ctx w = some (summaries, left, now, w')) :
    ∃ es s, BatchState.Comes r batch limit ctx es s ∧ s.output? = some (summaries, left) ∧
      k.Covers w (es.map Prod.snd) w' := by
  simp only [Rehearsal.playBatch, Option.bind_eq_bind, Option.bind_eq_some_iff, Prod.exists,
    Option.pure_def, Option.some.injEq, Prod.mk.injEq] at h
  obtain ⟨first, middle, now₁, w₁, hturn, second, now₂, w₂, hpool, rfl, rfl, rfl, rfl⟩ := h
  have ran := Script.runs_of_play hturn
  have hearly := Account.covers_of_play keeps hturn
  obtain ⟨late, d, course, hover, rfl, hlate⟩ := Pool.play_course keeps hpool
    (Pool.mirrors_start k _ _)
  have hd : d.isOver := by
    by_cases hgroup : parallelGroup batch = []
    · have hsound := Crew.sound_of_course course
      rw [hgroup] at hsound
      exact hsound.isOver_of_nil
    · exact hover (slots_pos hgroup)
  refine ⟨_, _, BatchState.comes_of_stands (.together ran course), ?_, ?_⟩
  · simp [BatchState.output?, hd]
  · rw [List.map_append, map_snd_ofTurn, map_snd_ofGroup]
    exact hearly.trans hlate

end Reports

namespace Rehearsal

theorem World.reply_events (w : World) (command : String) :
    (w.reply command).2.events = w.events := by
  unfold reply
  split <;> rfl

theorem World.respond_keeps :
    Responder.Keeps World.respond ⟨Query.event?, fun w => w.events.reverse, fun _ => True⟩ where
  log := by
    intro q now w delay r w' h
    cases q with
    | exec target command limit =>
      cases h
      exact (congrArg List.reverse (w.reply_events command)).trans (List.append_nil _).symm
    | collect request =>
      cases hw : w.collector <;>
        simp only [World.respond, hw, Option.some.injEq, Prod.mk.injEq] at h <;>
        obtain ⟨-, -, rfl⟩ := h <;>
        simp [Query.event?]
    | sleepForever => cases h
    | emit event =>
      cases h
      simp [Query.event?]
    | _ =>
      cases h
      simp [Query.event?]
  atOnce := by
    intro q now w delay r w' h htold
    cases q with
    | emit event =>
      cases h
      rfl
    | _ => cases htold
  good _ := trivial

end Rehearsal

end Assay

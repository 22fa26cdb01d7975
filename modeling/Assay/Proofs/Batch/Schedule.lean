import Assay.Proofs.Batch.Ends
import Assay.Proofs.Runner.Questions
import Assay.Runner.Batch

namespace Assay

open Script (Exchange AsksOnly share asksOnly_pure asksOnly_bind)

theorem Query.HasAnswer.nonempty {q : Query} (h : q.HasAnswer) : Nonempty q.Answer := by
  cases q with
  | exec => exact ⟨.error (.remote "")⟩
  | send => exact ⟨HttpReply.unreachable⟩
  | connect => exact ⟨false⟩
  | sleep => exact ⟨()⟩
  | sleepForever => exact h.elim
  | clock => exact ⟨(0 : Nat)⟩
  | emit => exact ⟨()⟩
  | collect => exact ⟨.error (.remote "")⟩

theorem Runner.runInTurn_hasAnswer [Libraries] {r : Runner} {entries : List BatchEntry}
    (calm : ∀ e ∈ entries, r.Calm e.suite e.options) (ctx : Context) :
    AsksOnly Query.HasAnswer (r.runInTurn entries ctx) := by
  induction entries generalizing ctx with
  | nil => exact asksOnly_pure _
  | cons e es ih =>
    refine asksOnly_bind (runSuite_hasAnswer (calm e (by simp)) ctx) fun result => ?_
    refine asksOnly_bind (ih (fun e he => calm e (by simp [he])) _) fun rest => ?_
    exact asksOnly_pure _

theorem Runner.runApart_hasAnswer [Libraries] {r : Runner} {e : BatchEntry}
    (calm : r.Calm e.suite e.options) (ctx : Context) :
    AsksOnly Query.HasAnswer (r.runApart ctx e) :=
  asksOnly_bind (runSuite_hasAnswer calm ctx) fun _ => asksOnly_pure _

theorem mem_of_sequentialGroup {batch : List BatchEntry} {e : BatchEntry}
    (h : e ∈ sequentialGroup batch) : e ∈ batch := List.mem_of_mem_filter h

theorem mem_of_parallelGroup {batch : List BatchEntry} {e : BatchEntry}
    (h : e ∈ parallelGroup batch) : e ∈ batch := List.mem_of_mem_filter h

theorem length_groups (batch : List BatchEntry) :
    (sequentialGroup batch).length + (parallelGroup batch).length = batch.length := by
  simp only [sequentialGroup, parallelGroup, ← List.countP_eq_length_filter]
  rw [List.length_eq_countP_add_countP (fun e : BatchEntry => e.suite.parallel) (l := batch),
    Nat.add_comm]
  simp

theorem slots_pos {limit : Option Nat} {group : List BatchEntry} (h : group ≠ []) :
    0 < slots limit group := by
  have hlength := List.length_pos_iff.mpr h
  cases limit with
  | none => exact hlength
  | some n =>
    by_cases hn : 0 < n
    · simp [slots, Option.filter, hn]
    · simpa [slots, Option.filter, hn] using hlength

/-- An exchange in a batch, of the sequential group or of the suite at a place of the parallel
group. -/
abbrev BatchExchange := Option Nat × Exchange Query.Answer

namespace BatchExchange

def ofTurn (es : List (Exchange Query.Answer)) : List BatchExchange := es.map (Prod.mk none)

def ofGroup (es : List (Nat × Exchange Query.Answer)) : List BatchExchange :=
  es.map (Prod.map some id)

variable (es : List (Exchange Query.Answer)) (fs : List (Nat × Exchange Query.Answer))

variable {es fs} in
theorem fst_of_mem_ofTurn {e : BatchExchange} (h : e ∈ ofTurn es) : e.1 = none := by
  obtain ⟨f, -, rfl⟩ := List.mem_map.mp h
  rfl

variable {es fs} in
theorem fst_of_mem_ofGroup {e : BatchExchange} (h : e ∈ ofGroup fs) : ∃ f ∈ fs, e.1 = some f.1 := by
  obtain ⟨f, hf, rfl⟩ := List.mem_map.mp h
  exact ⟨f, hf, rfl⟩

@[simp]
theorem share_none_ofTurn : share none (ofTurn es) = es := Script.share_pair _ _

@[simp]
theorem share_none_ofGroup : share none (ofGroup fs) = [] :=
  Script.share_eq_nil fun e he => by
    obtain ⟨f, -, hf⟩ := fst_of_mem_ofGroup he
    exact hf ▸ Option.some_ne_none _

@[simp]
theorem share_some_ofTurn (i : Nat) : share (some i) (ofTurn es) = [] :=
  Script.share_eq_nil fun _ he => fst_of_mem_ofTurn he ▸ (Option.some_ne_none i).symm

@[simp]
theorem share_some_ofGroup (i : Nat) : share (some i) (ofGroup fs) = share i fs :=
  Script.share_map (Option.some_injective _) i fs

@[simp]
theorem ofTurn_append (fs : List (Exchange Query.Answer)) :
    ofTurn (es ++ fs) = ofTurn es ++ ofTurn fs := List.map_append

@[simp]
theorem ofGroup_append (gs : List (Nat × Exchange Query.Answer)) :
    ofGroup (fs ++ gs) = ofGroup fs ++ ofGroup gs := List.map_append

@[simp]
theorem map_snd_ofTurn : (ofTurn es).map Prod.snd = es := by
  simp [ofTurn, Function.comp_def]

@[simp]
theorem map_snd_ofGroup : (ofGroup fs).map Prod.snd = fs.map Prod.snd := by
  simp [ofGroup, Function.comp_def]

end BatchExchange

/-- Where a batch stands: in its sequential group, or in its parallel group, with the summaries and
the context that the sequential group left. -/
inductive BatchState
  | inTurn (rest : Run (List Summary × Context))
  | together (first : List Summary) (left : Context) (crew : Crew Query.Answer Summary)

namespace BatchState

open BatchExchange

/-- The summaries, in the order in which they are returned, and the context, when all suites have
ended. -/
def output? : BatchState → Option (List Summary × Context)
  | inTurn _ => none
  | together first left crew => if crew.isOver then some (first ++ crew.ended, left) else none

section Steps

variable [Libraries] (r : Runner) (batch : List BatchEntry) (limit : Option Nat) (ctx : Context)

def start : BatchState := inTurn (r.runInTurn (sequentialGroup batch) ctx)

/-- The suites of the parallel group, none of which has begun yet. -/
def crew (left : Context) : Crew Query.Answer Summary :=
  .ofScripts ((parallelGroup batch).map (r.runApart left))

/-- A step of a batch. Questions get any answers, those of the parallel group in any order. -/
inductive Step : BatchState → List BatchExchange → BatchState → Prop
  | answer {q : Query} {next : q.Answer → Run (List Summary × Context)} (a : q.Answer) :
      Step (inTurn (.ask q next)) (ofTurn [⟨q, a⟩]) (inTurn (next a))
  | turnOver (first : List Summary) (left : Context) :
      Step (inTurn (.done (first, left))) [] (together first left (crew r batch left))
  | go {first : List Summary} {left : Context} {c d : Crew Query.Answer Summary}
      {es : List (Nat × Exchange Query.Answer)}
      (step : Crew.Step (slots limit (parallelGroup batch)) c es d) :
      Step (together first left c) (ofGroup es) (together first left d)

/-- What has come of a batch after some exchanges. -/
abbrev Comes (es : List BatchExchange) (s : BatchState) : Prop :=
  Course (Step r batch limit) (start r batch ctx) es s

end Steps

variable [Libraries] {r : Runner} {batch : List BatchEntry} {limit : Option Nat} {ctx : Context}
  {es : List BatchExchange}

/-- Where the exchanges of a batch can lead: into its sequential group, or through all of it into
its parallel group. -/
inductive Stands (r : Runner) (batch : List BatchEntry) (limit : Option Nat) (ctx : Context) :
    List BatchExchange → BatchState → Prop
  | inTurn {early : List (Exchange Query.Answer)} {rest : Run (List Summary × Context)}
      (reached : (r.runInTurn (sequentialGroup batch) ctx).Reaches early rest) :
      Stands r batch limit ctx (ofTurn early) (.inTurn rest)
  | together {early : List (Exchange Query.Answer)} {late : List (Nat × Exchange Query.Answer)}
      {first : List Summary} {left : Context} {c : Crew Query.Answer Summary}
      (ran : (r.runInTurn (sequentialGroup batch) ctx).Runs early (first, left))
      (course : Course (Crew.Step (slots limit (parallelGroup batch))) (crew r batch left) late c) :
      Stands r batch limit ctx (ofTurn early ++ ofGroup late) (.together first left c)

theorem stands_of_comes {s : BatchState} (h : Comes r batch limit ctx es s) :
    Stands r batch limit ctx es s := by
  induction h with
  | refl => exact .inTurn (.refl _)
  | snoc before last ih =>
    cases last with
    | @answer q next a =>
      cases ih with
      | inTurn reached =>
        rw [← ofTurn_append]
        exact .inTurn (reached.answer a)
    | turnOver first left =>
      cases ih with
      | inTurn reached => exact .together reached (.refl _)
    | go step =>
      cases ih with
      | together ran course =>
        rw [List.append_assoc, ← ofGroup_append]
        exact .together ran (.snoc course step)

/-- A batch has ended when its sequential group has run and all of its crew have ended. -/
theorem of_output {s : BatchState} {summaries : List Summary} {left : Context}
    (h : Comes r batch limit ctx es s) (hout : s.output? = some (summaries, left)) :
    ∃ early late first c, es = ofTurn early ++ ofGroup late ∧
      (r.runInTurn (sequentialGroup batch) ctx).Runs early (first, left) ∧
      Course (Crew.Step (slots limit (parallelGroup batch))) (crew r batch left) late c ∧
      c.isOver ∧ summaries = first ++ c.ended := by
  cases stands_of_comes h with
  | inTurn reached => cases hout
  | @together early late first left' c ran course =>
    simp only [output?, Option.ite_none_right_eq_some, Option.some.injEq, Prod.mk.injEq] at hout
    obtain ⟨hover, rfl, rfl⟩ := hout
    exact ⟨early, late, first, c, rfl, ran, course, hover, rfl⟩

theorem comes_inTurn {early : List (Exchange Query.Answer)} {s t : Run (List Summary × Context)}
    (h : s.Reaches early t) : Course (Step r batch limit) (inTurn s) (ofTurn early) (inTurn t) := by
  induction h with
  | refl s => exact .refl _
  | ask rest ih => exact Course.trans (.snoc (.refl _) (.answer _)) ih

theorem comes_together {late : List (Nat × Exchange Query.Answer)} {first : List Summary}
    {left : Context} {c d : Crew Query.Answer Summary}
    (h : Course (Crew.Step (slots limit (parallelGroup batch))) c late d) :
    Course (Step r batch limit) (together first left c) (ofGroup late) (together first left d) := by
  induction h with
  | refl => exact .refl _
  | snoc before last ih =>
    rw [ofGroup_append]
    exact .snoc ih (.go last)

theorem comes_of_stands {s : BatchState} (h : Stands r batch limit ctx es s) :
    Comes r batch limit ctx es s := by
  cases h with
  | inTurn reached => exact comes_inTurn reached
  | @together early late first left c ran course =>
    have hturn : Comes r batch limit ctx (ofTurn early ++ []) (.together first left _) :=
      .snoc (comes_inTurn ran) (.turnOver first left)
    rw [List.append_nil] at hturn
    exact hturn.trans (comes_together course)

/-- As long as a batch has not ended something can be done, when no delay between attempts is too
long. -/
theorem exists_step (calm : ∀ e ∈ batch, r.Calm e.suite e.options) {s : BatchState}
    (h : Comes r batch limit ctx es s) (hover : s.output? = none) :
    ∃ fs t, Step r batch limit s fs t := by
  cases stands_of_comes h with
  | @inTurn early rest reached =>
    cases rest with
    | done result => exact ⟨_, _, .turnOver result.1 result.2⟩
    | ask q next =>
      have hanswer := Runner.runInTurn_hasAnswer (r := r)
        (fun e he => calm e (mem_of_sequentialGroup he)) ctx
      cases hanswer.left reached with
      | ask here rest =>
        obtain ⟨a⟩ := here.nonempty
        exact ⟨_, _, .answer a⟩
  | @together early late first left c ran course =>
    have hopen : c.isOver = false := by
      simpa [output?] using hover
    have hsound := Crew.sound_of_course course
    have hgroup : parallelGroup batch ≠ [] := by
      intro hnil
      rw [hnil] at hsound
      rw [hsound.isOver_of_nil] at hopen
      cases hopen
    have hanswer : ∀ s ∈ (parallelGroup batch).map (r.runApart left),
        AsksOnly (fun q => Nonempty q.Answer) s := by
      intro s hs
      obtain ⟨e, he, rfl⟩ := List.mem_map.mp hs
      exact (Runner.runApart_hasAnswer (calm e (mem_of_parallelGroup he)) left).mono
        fun _ => Query.HasAnswer.nonempty
    obtain ⟨fs, d, hstep⟩ := hsound.exists_step (slots_pos hgroup) hanswer hopen
    exact ⟨_, _, .go hstep⟩

theorem step_wf (r : Runner) (batch : List BatchEntry) (limit : Option Nat) :
    WellFounded fun t s => ∃ es, Step r batch limit s es t := by
  have htogether (first : List Summary) (left : Context) (c : Crew Query.Answer Summary) :
      Acc (fun t s => ∃ es, Step r batch limit s es t) (together first left c) := by
    induction (Crew.step_wf (slots limit (parallelGroup batch))).apply c with
    | intro c _ ih =>
      refine ⟨_, fun t ht => ?_⟩
      obtain ⟨_, hstep⟩ := ht
      cases hstep with
      | go step => exact ih _ ⟨_, step⟩
  have hturn (s : Run (List Summary × Context)) :
      Acc (fun t s => ∃ es, Step r batch limit s es t) (inTurn s) := by
    induction s with
    | done result =>
      refine ⟨_, fun t ht => ?_⟩
      obtain ⟨_, hstep⟩ := ht
      cases hstep with
      | turnOver first left => exact htogether ..
    | ask q next ih =>
      refine ⟨_, fun t ht => ?_⟩
      obtain ⟨_, hstep⟩ := ht
      cases hstep with
      | answer a => exact ih a
  refine ⟨fun s => ?_⟩
  cases s with
  | inTurn rest => exact hturn rest
  | together first left c => exact htogether first left c

end BatchState

end Assay

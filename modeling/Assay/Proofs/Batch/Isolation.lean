import Assay.Proofs.Batch.Report
import Assay.Proofs.Runner.Steady

namespace Assay

open Script (Exchange AsksOnly share mem_share asksOnly_pure asksOnly_bind)
open BatchExchange

/-- The events of one suite in the stream of a batch. -/
def eventsFor (name : String) (es : List BatchExchange) : List Event :=
  (eventsOf (es.map Prod.snd)).filter fun event => event.suite = name

/-- Nobody else's name is told. -/
def Query.Tells (names : List String) (q : Query) : Prop :=
  ∀ event, q.event? = some event → event.suite ∈ names

namespace Runner

variable [Libraries] {r : Runner}

theorem runSuite_tells (r : Runner) (suite : Suite) (options : RunOptions) (ctx : Context) :
    AsksOnly (Query.Tells [suite.name]) (r.runSuite suite options ctx) := by
  have hquiet {q : Query} (hq : q.event? = none) : q.Tells [suite.name] := by
    intro event hevent
    rw [hq] at hevent
    cases hevent
  rw [runSuite_eq]
  refine asksOnly_bind ((r.work_tells suite options ctx).mono fun q hq event hevent => ?_) ?_
  · rw [(hq event hevent).1]
    exact List.mem_singleton_self _
  · intro (start, tally, left)
    refine asksOnly_bind (Run.clock_asksOnly (hquiet rfl)) fun stop => ?_
    refine asksOnly_bind (Run.emit_asksOnly ?_) fun _ => asksOnly_pure _
    intro event hevent
    cases hevent
    exact List.mem_singleton_self _

theorem runApart_tells (r : Runner) (ctx : Context) (e : BatchEntry) :
    AsksOnly (Query.Tells [e.suite.name]) (r.runApart ctx e) :=
  asksOnly_bind (r.runSuite_tells ..) fun _ => asksOnly_pure _

theorem runInTurn_tells (entries : List BatchEntry) (ctx : Context) :
    AsksOnly (Query.Tells (entries.map (·.suite.name))) (r.runInTurn entries ctx) := by
  induction entries generalizing ctx with
  | nil => exact asksOnly_pure _
  | cons e es ih =>
    refine asksOnly_bind ((r.runSuite_tells ..).mono fun q hq event hevent => ?_) fun result => ?_
    · rw [List.mem_singleton.mp (hq event hevent)]
      exact List.mem_cons_self
    · refine asksOnly_bind ((ih _).mono fun q hq event hevent => ?_) fun rest => asksOnly_pure _
      exact List.mem_cons_of_mem _ (hq event hevent)

theorem agree_runInTurn (o : Oracle) (r : Runner) (entries : List BatchEntry) (ctx : Context) :
    o.Agree (fun x y => x.1.map Summary.timeless = y.1.map Summary.timeless ∧ x.2 = y.2)
      (r.runInTurn entries ctx) (r.runInTurn entries ctx) := by
  induction entries generalizing ctx with
  | nil => exact Oracle.agree_pure ⟨rfl, rfl⟩
  | cons e es ih =>
    refine (Oracle.agree_runSuite r e.suite e.options ctx).bind ?_
    rintro ⟨summary, middle⟩ ⟨summary', middle'⟩ ⟨hsummary, hctx⟩
    obtain rfl : middle = middle' := hctx
    refine (ih middle).bind ?_
    rintro ⟨summaries, left⟩ ⟨summaries', left'⟩ ⟨hsummaries, hctx⟩
    refine Oracle.agree_pure ⟨?_, hctx⟩
    dsimp only at hsummary hsummaries ⊢
    rw [List.map_cons, List.map_cons, hsummary, hsummaries]

end Runner

section Names

variable {r : Runner} {batch : List BatchEntry} {limit : Option Nat} {ctx left : Context}
  {es : List BatchExchange} {first second : List Summary} {e : BatchEntry} {i : Nat}

theorem name_inj (names : (batch.map (·.suite.name)).Nodup) {e' : BatchEntry} (he : e ∈ batch)
    (he' : e' ∈ batch) (h : e.suite.name = e'.suite.name) : e = e' :=
  List.inj_on_of_nodup_map names he he' h

theorem parallel_of_mem (he : e ∈ parallelGroup batch) : e.suite.parallel = true :=
  (List.mem_filter.mp he).2

theorem not_mem_sequentialGroup (names : (batch.map (·.suite.name)).Nodup)
    (he : e ∈ parallelGroup batch) : e.suite.name ∉ (sequentialGroup batch).map (·.suite.name) := by
  intro h
  obtain ⟨e', he', hname⟩ := List.mem_map.mp h
  obtain rfl := name_inj names (mem_of_sequentialGroup he') (mem_of_parallelGroup he) hname
  simpa [parallel_of_mem he] using (List.mem_filter.mp he').2

theorem place_inj (names : (batch.map (·.suite.name)).Nodup) {e' : BatchEntry} {j : Nat}
    (he : (parallelGroup batch)[i]? = some e) (he' : (parallelGroup batch)[j]? = some e')
    (h : e'.suite.name = e.suite.name) : j = i := by
  have hgroup : ((parallelGroup batch).map (·.suite.name)).Nodup :=
    names.sublist (List.filter_sublist.map _)
  have hj : j < ((parallelGroup batch).map (·.suite.name)).length := by
    rw [List.length_map]
    exact (List.getElem?_eq_some_iff.mp he').1
  refine (List.getElem?_inj hj hgroup).mp ?_
  rw [List.getElem?_map, List.getElem?_map, he, he', Option.map_some, Option.map_some, h]

variable [Libraries]

/-- An event is one of a parallel suite just when it comes from the place of the suite. -/
theorem BatchSafe.suite_iff (h : BatchSafe r batch limit ctx es)
    (names : (batch.map (·.suite.name)).Nodup) (he : (parallelGroup batch)[i]? = some e)
    {x : BatchExchange} (hx : x ∈ es) {event : Event} (hevent : x.2.1.event? = some event) :
    event.suite = e.suite.name ↔ x.1 = some i := by
  obtain ⟨label, x⟩ := x
  cases label with
  | none =>
    obtain ⟨rest, hreach⟩ := h.inTurn
    have htells := (Runner.runInTurn_tells _ _).of_mem hreach x (mem_share.mpr hx)
    specialize htells event hevent
    refine ⟨fun hname => ?_, nofun⟩
    exact absurd (hname ▸ htells) (not_mem_sequentialGroup names (List.mem_of_getElem? he))
  | some j =>
    obtain ⟨first, left, -, happart⟩ := h.apart ⟨_, hx, nofun⟩
    obtain ⟨e', he'⟩ : ∃ e', (parallelGroup batch)[j]? = some e' := by
      obtain ⟨early, late, rfl, hearly, hlate⟩ := h.order
      rcases List.mem_append.mp hx with hx | hx
      · cases hearly _ hx
      · obtain ⟨k, hk, hjk⟩ := hlate _ hx
        cases hjk
        exact ⟨_, List.getElem?_eq_getElem hk⟩
    obtain ⟨rest, hreach⟩ := happart j e' he'
    have htells := (r.runApart_tells left e').of_mem hreach x (mem_share.mpr hx) event hevent
    rw [List.mem_singleton.mp htells, Option.some.injEq]
    refine ⟨fun hname => place_inj names he he' hname, ?_⟩
    rintro rfl
    rw [he] at he'
    cases he'
    rfl

theorem BatchSafe.eventsFor_eq (h : BatchSafe r batch limit ctx es)
    (names : (batch.map (·.suite.name)).Nodup) (he : (parallelGroup batch)[i]? = some e) :
    eventsFor e.suite.name es = eventsOf (share (some i) es) := by
  simp only [eventsFor, eventsOf, share, List.filterMap_map, List.filterMap_filterMap,
    List.filter_filterMap]
  -- Both sides pick from the same exchanges, one by the name and one by the label.
  refine List.filterMap_congr fun x hx => ?_
  cases hevent : x.2.1.event? with
  | none => by_cases hi : x.1 = some i <;> simp [hevent, hi]
  | some event =>
    have hiff := h.suite_iff names he hx hevent
    by_cases hi : x.1 = some i
    · simp [hevent, hi, hiff.mpr hi]
    · have hne : event.suite ≠ e.suite.name := fun hname => hi (hiff.mp hname)
      simp [hevent, hi, hne]

theorem RunsInTurn.names {entries : List BatchEntry} {ess : List (List (Exchange Query.Answer))}
    {summaries : List Summary} (h : RunsInTurn r entries ctx ess summaries left) :
    summaries.map Summary.suite = entries.map (·.suite.name) := by
  induction h with
  | nil => rfl
  | cons first rest ih => rw [List.map_cons, List.map_cons, ih, (runSuite_report first).name]

theorem BatchReport.exists_summary (h : BatchReport r batch ctx es first second left)
    (he : (parallelGroup batch)[i]? = some e) :
    ∃ summary ∈ first ++ second, summary.suite = e.suite.name := by
  obtain ⟨results, hlength, hperm, hruns⟩ := h.apart
  have hi : i < results.length := by
    rw [hlength]
    exact (List.getElem?_eq_some_iff.mp he).1
  obtain ⟨own, hown⟩ := hruns i e _ he (List.getElem?_eq_getElem hi)
  refine ⟨results[i], ?_, (runSuite_report hown).name⟩
  exact List.mem_append_right _ (hperm.symm.subset (List.getElem_mem hi))

/-- The summary under the name of a parallel suite is that of its own run. -/
theorem BatchReport.runs_of_name (h : BatchReport r batch ctx es first second left)
    (names : (batch.map (·.suite.name)).Nodup) (he : (parallelGroup batch)[i]? = some e)
    {summary : Summary} (hs : summary ∈ first ++ second) (hname : summary.suite = e.suite.name) :
    ∃ own, (r.runSuite e.suite e.options left).Runs (share (some i) es) (summary, own) := by
  rcases List.mem_append.mp hs with hs | hs
  · obtain ⟨ess, -, hess⟩ := h.inTurn
    refine absurd ?_ (not_mem_sequentialGroup names (List.mem_of_getElem? he))
    rw [← hess.names, ← hname]
    exact List.mem_map_of_mem hs
  · obtain ⟨results, hlength, hperm, hruns⟩ := h.apart
    obtain ⟨j, hj, rfl⟩ := List.mem_iff_getElem.mp (hperm.subset hs)
    have he' := List.getElem?_eq_getElem (hlength ▸ hj)
    obtain ⟨own, hown⟩ := hruns j _ _ he' (List.getElem?_eq_getElem hj)
    obtain rfl := place_inj names he he' ((runSuite_report hown).name.symm.trans hname)
    rw [he] at he'
    cases he'
    exact ⟨own, hown⟩

end Names

/-- What the run of a suite alone on a context gives: these events and this summary, and in no run
anything else, but for the times. -/
structure RunsAlone [Libraries] (r : Runner) (o : Oracle) (e : BatchEntry) (ctx : Context)
    (events : List Event) (summary : Summary) : Prop where
  possible : ∃ es left, (r.runSuite e.suite e.options ctx).Runs es (summary, left) ∧
    o.Honest es ∧ eventsOf es = events
  only : ∀ es summary' left, (r.runSuite e.suite e.options ctx).Runs es (summary', left) →
    o.Honest es → (eventsOf es).map o.view = events.map o.view ∧
      summary'.timeless = summary.timeless

theorem runsAlone_of_runs [Libraries] {r : Runner} {o : Oracle} {e : BatchEntry}
    {ctx left : Context} {es : List (Exchange Query.Answer)} {summary : Summary}
    (h : (r.runSuite e.suite e.options ctx).Runs es (summary, left)) (honest : o.Honest es) :
    RunsAlone r o e ctx (eventsOf es) summary where
  possible := ⟨es, left, h, honest, rfl⟩
  only := by
    intro fs summary' left' h' honest'
    have hagree := Oracle.agree_runSuite r e.suite e.options ctx _ _ _ _ h' h honest' honest
    exact ⟨hagree.2, hagree.1.1⟩

theorem RunsAlone.unique [Libraries] {r : Runner} {o : Oracle} {e : BatchEntry} {ctx : Context}
    {events events' : List Event} {summary summary' : Summary}
    (h : RunsAlone r o e ctx events summary) (h' : RunsAlone r o e ctx events' summary') :
    events'.map o.view = events.map o.view ∧ summary'.timeless = summary.timeless := by
  obtain ⟨es, left, hruns, honest, rfl⟩ := h'.possible
  exact h.only es summary' left hruns honest

section Isolation

variable {r : Runner} {o : Oracle} {batch : List BatchEntry} {limit : Option Nat}
  {ctx left : Context} {es : List BatchExchange} {s : BatchState} {summaries : List Summary}

theorem honest_share (honest : ∀ x ∈ es, o.Answers x.2) (i : Option Nat) :
    o.Honest (share i es) := fun _ hx => honest _ (mem_share.mp hx)

theorem runs_sequentialGroup [Libraries] (h : BatchState.Comes r batch limit ctx es s)
    (hout : s.output? = some (summaries, left)) :
    ∃ first, (r.runInTurn (sequentialGroup batch) ctx).Runs (share none es) (first, left) := by
  obtain ⟨early, late, first, c, rfl, ran, -⟩ := BatchState.of_output h hout
  exact ⟨first, by simpa using ran⟩

theorem runsAlone_of_comes [Libraries] (names : (batch.map (·.suite.name)).Nodup)
    (h : BatchState.Comes r batch limit ctx es s) (hout : s.output? = some (summaries, left))
    (honest : ∀ x ∈ es, o.Answers x.2) {e : BatchEntry} (he : e ∈ parallelGroup batch) :
    (∃ summary ∈ summaries, summary.suite = e.suite.name) ∧
    ∀ summary ∈ summaries, summary.suite = e.suite.name →
      RunsAlone r o e left (eventsFor e.suite.name es) summary := by
  obtain ⟨first, second, rfl, hreport⟩ := batchReport_of_comes h hout
  obtain ⟨i, hi⟩ := List.mem_iff_getElem?.mp he
  refine ⟨hreport.exists_summary hi, fun summary hs hname => ?_⟩
  obtain ⟨own, hown⟩ := hreport.runs_of_name names hi hs hname
  rw [(batchSafe_of_comes h).eventsFor_eq names hi]
  exact runsAlone_of_runs hown (honest_share honest _)

end Isolation

/-- The world of an oracle, which takes for each call a time of its own, and keeps the reports. -/
def Oracle.respond (o : Oracle) (delay : Query → Nat) : Responder Query.Answer (List Event)
  | .exec target command limit, _, log =>
    some (delay (.exec target command limit), o.exec target command limit, log)
  | .send request limit, _, log => some (delay (.send request limit), o.send request limit, log)
  | .connect host port limit, _, log =>
    some (delay (.connect host port limit), o.connect host port limit, log)
  | .sleep nanos, _, log => some (Rehearsal.sleepMillis nanos, (), log)
  | .sleepForever, _, _ => none
  | .clock, now, log => some (0, now, log)
  | .emit event, _, log => some (0, (), log ++ [event])
  | .collect request, _, log =>
    some (delay (.collect request),
      (o.collect.map (· request)).getD (.error (.remote "nobody collects")), log)

theorem Oracle.respond_keeps (o : Oracle) (delay : Query → Nat) :
    (o.respond delay).Keeps ⟨Query.event?, id, o.Answers⟩ where
  log := by
    intro q now w d r w' h
    cases q with
    | sleepForever => cases h
    | emit event =>
      cases h
      rfl
    | _ =>
      cases h
      exact (List.append_nil w).symm
  atOnce := by
    intro q now w d r w' h htold
    cases q with
    | emit event =>
      cases h
      rfl
    | _ => cases htold
  good := by
    intro q now w d r w' h
    cases q with
    | exec | send | connect =>
      cases h
      rfl
    | collect request =>
      cases h
      intro collect hcollect
      rw [hcollect]
      rfl
    | sleepForever => cases h
    | sleep | clock | emit => trivial

/-- In a world that answers each call by itself, each parallel suite reports what it does alone. -/
theorem playBatch_runsAlone [Libraries] {r : Runner} {o : Oracle} {delay : Query → Nat}
    {batch : List BatchEntry} (names : (batch.map (·.suite.name)).Nodup) {limit : Option Nat}
    {ctx left : Context} {summaries : List Summary} {now : Nat} {events : List Event}
    (h : Rehearsal.playBatch (o.respond delay) r batch limit ctx [] =
      some (summaries, left, now, events)) {e : BatchEntry} (he : e ∈ parallelGroup batch) :
    ∃ summary ∈ summaries, summary.suite = e.suite.name ∧
      RunsAlone r o e left (events.filter fun event => event.suite = e.suite.name) summary := by
  obtain ⟨es, s, hcomes, hout, hlog, honest⟩ := playBatch_comes (o.respond_keeps delay) h
  obtain rfl : events = eventsOf (es.map Prod.snd) := hlog
  obtain ⟨⟨summary, hs, hname⟩, hall⟩ :=
    runsAlone_of_comes names hcomes hout (List.forall_mem_map.mp honest) he
  exact ⟨summary, hs, hname, hall summary hs hname⟩

/-- Parallel suites do not feel one another. When the collaborators answer by the call only, then in
whatever order the suites of a batch take their steps, each parallel suite reports what it does when
it is run alone on the context that the sequential group left, which is the context of the batch in
the end. So neither the limit nor the other parallel suites make a difference to it. -/
theorem Runner.parallel_isolated [Libraries] (r : Runner) (o : Oracle) (batch : List BatchEntry)
    (names : (batch.map (·.suite.name)).Nodup) (limit : Option Nat) (ctx : Context)
    (es : List BatchExchange) (s : BatchState) (summaries : List Summary) (left : Context)
    (h : BatchState.Comes r batch limit ctx es s) (hout : s.output? = some (summaries, left))
    (honest : ∀ x ∈ es, o.Answers x.2) :
    (∃ first, (r.runInTurn (sequentialGroup batch) ctx).Runs (share none es) (first, left)) ∧
    (∀ e ∈ parallelGroup batch,
      (∃ summary ∈ summaries, summary.suite = e.suite.name) ∧
      ∀ summary ∈ summaries, summary.suite = e.suite.name →
        RunsAlone r o e left (eventsFor e.suite.name es) summary) ∧
    (∀ batch' limit' es' s' summaries' left', (batch'.map (·.suite.name)).Nodup →
      sequentialGroup batch' = sequentialGroup batch →
      BatchState.Comes r batch' limit' ctx es' s' → s'.output? = some (summaries', left') →
      (∀ x ∈ es', o.Answers x.2) →
        left' = left ∧ ∀ e ∈ parallelGroup batch, e ∈ parallelGroup batch' →
          (eventsFor e.suite.name es').map o.view = (eventsFor e.suite.name es).map o.view ∧
          ∀ summary ∈ summaries, ∀ summary' ∈ summaries', summary.suite = e.suite.name →
            summary'.suite = e.suite.name → summary'.timeless = summary.timeless) := by
  obtain ⟨first, hturn⟩ := runs_sequentialGroup h hout
  have halone {e : BatchEntry} (he : e ∈ parallelGroup batch) :=
    runsAlone_of_comes names h hout honest he
  refine ⟨⟨first, hturn⟩, fun e he => halone he, ?_⟩
  intro batch' limit' es' s' summaries' left' names' hgroup h' hout' honest'
  obtain ⟨first', hturn'⟩ := runs_sequentialGroup h' hout'
  rw [hgroup] at hturn'
  have hleft : left' = left :=
    (agree_runInTurn o r _ ctx _ _ _ _ hturn' hturn (honest_share honest' _)
      (honest_share honest _)).1.2
  subst hleft
  refine ⟨rfl, fun e he he' => ?_⟩
  obtain ⟨⟨summary, hs, hname⟩, hall⟩ := halone he
  obtain ⟨⟨summary', hs', hname'⟩, hall'⟩ := runsAlone_of_comes names' h' hout' honest' he'
  refine ⟨((hall summary hs hname).unique (hall' summary' hs' hname')).1, ?_⟩
  intro x hx y hy hxname hyname
  exact ((hall x hx hxname).unique (hall' y hy hyname)).2

namespace Rehearsal

def deafOracle : Oracle :=
  ⟨fun _ _ _ => .error (.remote "deaf"), fun _ _ => .unreachable, fun _ _ _ => false, none⟩

def emptySuite (name : String) (parallel : Bool) : Suite :=
  ⟨name, none, parallel, [], none, none, none, [], [], []⟩

/-- A parallel suite that has others go on while it waits. -/
def pausingSuite (name : String) (millis : Nat) : Suite :=
  { emptySuite name true with setup := [.delay ⟨millis⟩] }

def pausingBatch : List BatchEntry :=
  [⟨pausingSuite "one" 2, idleOptions⟩, ⟨emptySuite "two" false, idleOptions⟩,
    ⟨pausingSuite "three" 1, idleOptions⟩]

def shorterBatch : List BatchEntry := pausingBatch.take 2

theorem parallel_isolated_pausing :
    (pausingBatch.map (·.suite.name)).Nodup ∧ (shorterBatch.map (·.suite.name)).Nodup ∧
    ∃ es s es' s' summaries summaries' summary summary',
      BatchState.Comes ⟨false, none⟩ pausingBatch none .empty es s ∧
      s.output? = some (summaries, .empty) ∧ (∀ x ∈ es, deafOracle.Answers x.2) ∧
      BatchState.Comes ⟨false, none⟩ shorterBatch (some 1) .empty es' s' ∧
      s'.output? = some (summaries', .empty) ∧ (∀ x ∈ es', deafOracle.Answers x.2) ∧
      summary ∈ summaries ∧ summary' ∈ summaries' ∧
      RunsAlone ⟨false, none⟩ deafOracle ⟨pausingSuite "one" 2, idleOptions⟩ .empty
        (eventsFor "one" es) summary ∧
      (eventsFor "one" es').map deafOracle.view = (eventsFor "one" es).map deafOracle.view ∧
      summary'.timeless = summary.timeless := by
  have names : (pausingBatch.map (·.suite.name)).Nodup := by decide
  have names' : (shorterBatch.map (·.suite.name)).Nodup := by decide
  have keeps := deafOracle.respond_keeps fun _ => 1
  have hplay : playBatch (deafOracle.respond fun _ => 1) ⟨false, none⟩ pausingBatch none .empty [] =
      some ([⟨"two", 0, 0, 0, 0⟩, ⟨"three", 0, 0, 0, 1⟩, ⟨"one", 0, 0, 0, 2⟩], .empty, 2,
        [.suiteStart "two" none 0, .suiteEnd "two" 0 0 0 0, .suiteStart "one" none 0,
          .suiteStart "three" none 0, .suiteEnd "three" 0 0 0 1, .suiteEnd "one" 0 0 0 2]) := rfl
  have hplay' : playBatch (deafOracle.respond fun _ => 1) ⟨false, none⟩ shorterBatch (some 1) .empty
      [] = some ([⟨"two", 0, 0, 0, 0⟩, ⟨"one", 0, 0, 0, 2⟩], .empty, 2,
        [.suiteStart "two" none 0, .suiteEnd "two" 0 0 0 0, .suiteStart "one" none 0,
          .suiteEnd "one" 0 0 0 2]) := rfl
  obtain ⟨es, s, h, hout, -, honest⟩ := playBatch_comes keeps hplay
  obtain ⟨es', s', h', hout', -, honest'⟩ := playBatch_comes keeps hplay'
  rw [List.forall_mem_map] at honest honest'
  obtain ⟨-, alone, same⟩ := Runner.parallel_isolated ⟨false, none⟩ deafOracle pausingBatch names
    none .empty es s _ _ h hout honest
  have he : ⟨pausingSuite "one" 2, idleOptions⟩ ∈ parallelGroup pausingBatch := .head _
  have he' : ⟨pausingSuite "one" 2, idleOptions⟩ ∈ parallelGroup shorterBatch := .head _
  obtain ⟨-, hsame⟩ := same shorterBatch (some 1) es' s' _ _ names' rfl h' hout' honest'
  obtain ⟨hevents, hsummaries⟩ := hsame _ he he'
  have hmem : (⟨"one", 0, 0, 0, 2⟩ : Summary) ∈
      [⟨"two", 0, 0, 0, 0⟩, ⟨"three", 0, 0, 0, 1⟩, ⟨"one", 0, 0, 0, 2⟩] := by simp
  have hmem' : (⟨"one", 0, 0, 0, 2⟩ : Summary) ∈
      [⟨"two", 0, 0, 0, 0⟩, ⟨"one", 0, 0, 0, 2⟩] := by simp
  exact ⟨names, names', es, s, es', s', _, _, _, _, h, hout, honest, h', hout', honest', hmem,
    hmem', (alone _ he).2 _ hmem rfl, hevents, hsummaries _ hmem _ hmem' rfl rfl⟩

end Rehearsal

end Assay

import Assay.Proofs.Batch.Report
import Assay.Report.Render

namespace Assay

open Script (Exchange share)
open BatchExchange

namespace Report.Totals

theorem record_eq (t : Totals) (event : Event) :
    t.record event =
      ⟨t.suites + event.summary?.toList.length, t.passed + (if event.isPass then 1 else 0),
        t.failed + (if event.isFail then 1 else 0),
        t.skipped + (if event.isSkip then 1 else 0)⟩ := by
  cases event <;> rfl

theorem foldl_record (events : List Event) (t : Totals) :
    events.foldl record t =
      ⟨t.suites + (events.filterMap Event.summary?).length, t.passed + events.countP Event.isPass,
        t.failed + events.countP Event.isFail, t.skipped + events.countP Event.isSkip⟩ := by
  induction events generalizing t with
  | nil => rfl
  | cons event events ih =>
    have hends : ((event :: events).filterMap Event.summary?).length =
        event.summary?.toList.length + (events.filterMap Event.summary?).length := by
      cases hevent : event.summary? with
      | none => simp [hevent]
      | some summary =>
        simp [hevent]
        omega
    rw [List.foldl_cons, ih, record_eq, hends]
    simp only [List.countP_cons, Totals.mk.injEq]
    omega

theorem ofEvents_eq (events : List Event) :
    ofEvents events =
      ⟨(events.filterMap Event.summary?).length, events.countP Event.isPass,
        events.countP Event.isFail, events.countP Event.isSkip⟩ := by
  have h := foldl_record events {}
  simp only [Nat.zero_add] at h
  exact h

end Report.Totals

/-- The shares of all who take part are the whole, in another order. -/
theorem Script.perm_shares {Q ι : Type} {A : Q → Type} [DecidableEq ι] {keys : List ι}
    (hnodup : keys.Nodup) {es : List (ι × Exchange A)} (h : ∀ e ∈ es, e.1 ∈ keys) :
    (keys.flatMap fun i => share i es).Perm (es.map Prod.snd) := by
  induction es with
  | nil => simp
  | cons e es ih =>
    obtain ⟨i, x⟩ := e
    have hrest := ih fun e he => h e (List.mem_cons_of_mem _ he)
    -- The new exchange is in the share of `i` and in no other, since `i` is one key only.
    obtain ⟨before, after, rfl⟩ := List.append_of_mem (h (i, x) List.mem_cons_self)
    have hself : share i ((i, x) :: es) = x :: share i es := by simp [share]
    have hother : ∀ j, j ≠ i → share j ((i, x) :: es) = share j es := by
      intro j hj
      simp [share, hj.symm]
    have hparts := List.nodup_middle.mp hnodup
    have hnot := (List.nodup_cons.mp hparts).1
    rw [List.mem_append, not_or] at hnot
    have hbefore : (before.flatMap fun j => share j ((i, x) :: es)) =
        before.flatMap fun j => share j es := by
      apply List.flatMap_congr
      intro j hj
      exact hother j (ne_of_mem_of_not_mem hj hnot.1)
    have hafter : (after.flatMap fun j => share j ((i, x) :: es)) =
        after.flatMap fun j => share j es := by
      apply List.flatMap_congr
      intro j hj
      exact hother j (ne_of_mem_of_not_mem hj hnot.2)
    simp only [List.flatMap_append, List.flatMap_cons] at hrest ⊢
    rw [hself, hbefore, hafter, List.map_cons, List.cons_append]
    exact List.perm_middle.trans (hrest.cons x)

section Counts

variable [Libraries] {r : Runner} {batch : List BatchEntry} {limit : Option Nat}
  {ctx left : Context} {first second : List Summary} {p : Event → Bool} {f : Summary → Nat}

/-- A number of a summary that counts the events of its suite. -/
def Counts (p : Event → Bool) (f : Summary → Nat) : Prop :=
  ∀ (r : Runner) (suite : Suite) (options : RunOptions) (ctx left : Context)
    (es : List (Exchange Query.Answer)) (summary : Summary),
    (r.runSuite suite options ctx).Runs es (summary, left) →
      f summary = (eventsOf es).countP p

theorem counts_passed : Counts Event.isPass (·.passed) :=
  fun _ _ _ _ _ _ _ h => (runSuite_report h).passed

theorem counts_failed : Counts Event.isFail (·.failed) :=
  fun _ _ _ _ _ _ _ h => (runSuite_report h).failed

theorem counts_skipped : Counts Event.isSkip (·.skipped) :=
  fun _ _ _ _ _ _ _ h => (runSuite_report h).skipped

theorem RunsInTurn.countP {entries : List BatchEntry} {ess : List (List (Exchange Query.Answer))}
    {summaries : List Summary} (h : RunsInTurn r entries ctx ess summaries left)
    (hcounts : Counts p f) : (eventsOf ess.flatten).countP p = (summaries.map f).sum := by
  induction h with
  | nil => rfl
  | cons first rest ih =>
    rw [List.flatten_cons, eventsOf_append, List.countP_append, ih, ← hcounts _ _ _ _ _ _ _ first,
      List.map_cons, List.sum_cons]

/-- What all suites of a batch count together is what is counted in all that is told, in whatever
order the suites of the parallel group take their steps. -/
theorem BatchReport.countP {es : List BatchExchange}
    (h : BatchReport r batch ctx es first second left)
    (hsafe : BatchSafe r batch limit ctx es) (hcounts : Counts p f) :
    (eventsOf (es.map Prod.snd)).countP p = ((first ++ second).map f).sum := by
  -- Each exchange is one of the sequential group, at `none`, or of one suite of the parallel group.
  let places : List (Option Nat) := none :: (List.range (parallelGroup batch).length).map some
  have hnodup : places.Nodup := by
    have hsome : ((List.range (parallelGroup batch).length).map some).Nodup :=
      List.nodup_range.map (Option.some_injective Nat)
    exact List.nodup_cons.mpr ⟨by simp, hsome⟩
  have hplaces : ∀ e ∈ es, e.1 ∈ places := by
    obtain ⟨early, late, rfl, hearly, hlate⟩ := hsafe.order
    intro e he
    rcases List.mem_append.mp he with he | he
    · rw [hearly e he]
      exact List.mem_cons_self
    · obtain ⟨i, hi, hplace⟩ := hlate e he
      rw [hplace]
      simp [places, hi]
  have hperm := (Script.perm_shares hnodup hplaces).filterMap fun e => e.1.event?
  obtain ⟨ess, hshare, hturn⟩ := h.inTurn
  obtain ⟨results, hlength, hresults, hruns⟩ := h.apart
  have hfirst : (eventsOf (share none es)).countP p = (first.map f).sum := by
    rw [hshare]
    exact hturn.countP hcounts
  have hsecond : (List.range (parallelGroup batch).length).map
      (fun i => (eventsOf (share (some i) es)).countP p) = results.map f := by
    apply List.ext_getElem
    · simp [hlength]
    · intro i hi hi'
      simp only [List.length_map, List.length_range] at hi hi'
      obtain ⟨own, hrun⟩ := hruns i _ _ (List.getElem?_eq_getElem hi) (List.getElem?_eq_getElem hi')
      have hcount := hcounts _ _ _ _ _ _ _ hrun
      simp [hcount]
  have hsum : (second.map f).sum = (results.map f).sum := (hresults.map f).sum_eq
  have hflat : (eventsOf (places.flatMap fun i => share i es)).countP p =
      (places.map fun i => (eventsOf (share i es)).countP p).sum := by
    rw [eventsOf, List.filterMap_flatMap, List.countP_flatMap]
    rfl
  calc (eventsOf (es.map Prod.snd)).countP p
      = (eventsOf (places.flatMap fun i => share i es)).countP p := (hperm.countP_eq p).symm
    _ = (first.map f).sum + (results.map f).sum := by
      rw [hflat, List.map_cons, List.sum_cons, hfirst, List.map_map]
      exact congrArg _ (congrArg List.sum hsecond)
    _ = ((first ++ second).map f).sum := by
      rw [List.map_append, List.sum_append, hsum]

/-- The totals of a batch are the sums of its summaries, and there is one summary for each suite. -/
theorem totals_of_comes {es : List BatchExchange} {s : BatchState} {summaries : List Summary}
    (h : BatchState.Comes r batch limit ctx es s) (hout : s.output? = some (summaries, left)) :
    Report.Totals.ofEvents (eventsOf (es.map Prod.snd)) =
      ⟨batch.length, (summaries.map (·.passed)).sum, (summaries.map (·.failed)).sum,
        (summaries.map (·.skipped)).sum⟩ := by
  obtain ⟨first, second, rfl, hreport⟩ := batchReport_of_comes h hout
  have hsafe := batchSafe_of_comes h
  rw [Report.Totals.ofEvents_eq, hreport.told, hreport.length,
    hreport.countP hsafe counts_passed, hreport.countP hsafe counts_failed,
    hreport.countP hsafe counts_skipped]

end Counts

end Assay

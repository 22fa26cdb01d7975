import Assay.Proofs.Batch.Report
import Assay.Rehearsal.Machine

namespace Assay

open Script (AsksOnly asksOnly_bind asksOnly_each asksOnly_pure asksOnly_query)

def HostQuery.event? : HostQuery → Option Event
  | .emit event => some event
  | _ => none

def HostQuery.IsQuiet (q : HostQuery) : Prop := q.event? = none

namespace Docker

theorem withProgram_isQuiet {α : Type} {d : Docker} {f : String → HostRun (Except Error α)}
    (hf : ∀ p, AsksOnly HostQuery.IsQuiet (f p)) :
    AsksOnly HostQuery.IsQuiet (d.withProgram f) := by
  have hprogram : AsksOnly HostQuery.IsQuiet d.program := by
    unfold program
    cases d.binary with
    | some p => exact asksOnly_pure _
    | none =>
      refine asksOnly_bind (asksOnly_query rfl) fun found => ?_
      cases found <;> exact asksOnly_pure _
  refine asksOnly_bind hprogram fun found => ?_
  cases found with
  | ok p => exact hf p
  | error e => exact asksOnly_pure _

theorem exec_isQuiet (d : Docker) (target command : String) (limit : Duration) :
    AsksOnly HostQuery.IsQuiet (d.exec target command limit) :=
  withProgram_isQuiet fun _ => asksOnly_bind (asksOnly_query rfl) fun _ => asksOnly_pure _

theorem ask_isQuiet (program : String) (arguments : List String) :
    AsksOnly HostQuery.IsQuiet (ask program arguments) :=
  asksOnly_bind (asksOnly_query rfl) fun _ => asksOnly_pure _

theorem addDocker_isQuiet (program : String) (request : DiagnosticsRequest) :
    AsksOnly HostQuery.IsQuiet (addDocker program request) := by
  refine asksOnly_bind (asksOnly_each _ fun report container _ => ?_) fun report =>
    asksOnly_each _ fun report network _ => ?_
  · refine asksOnly_bind (ask_isQuiet ..) fun logs => ?_
    exact asksOnly_bind (ask_isQuiet ..) fun health => asksOnly_pure _
  · exact asksOnly_bind (ask_isQuiet ..) fun answer => asksOnly_pure _

theorem addMock_isQuiet [Libraries] (report : DiagnosticsReport) (endpoint : String) :
    AsksOnly HostQuery.IsQuiet (addMock report endpoint) := by
  refine asksOnly_bind ?_ fun v => asksOnly_pure _
  unfold mockRequests
  split
  · exact asksOnly_pure _
  · exact asksOnly_pure _
  · exact asksOnly_bind (asksOnly_query rfl) fun reply => asksOnly_pure _

theorem collect_isQuiet [Libraries] (d : Docker) (request : DiagnosticsRequest) :
    AsksOnly HostQuery.IsQuiet (d.collect request) := by
  have hmocks : ∀ report, AsksOnly HostQuery.IsQuiet (do
      let report ← Script.each addMock report request.mockEndpoints
      pure (Except.ok report) : HostRun (Except Error DiagnosticsReport)) := by
    intro report
    refine asksOnly_bind (asksOnly_each _ fun report endpoint _ => ?_) fun _ => asksOnly_pure _
    exact addMock_isQuiet report endpoint
  unfold collect
  dsimp only
  split
  · exact hmocks .empty
  · refine asksOnly_bind (withProgram_isQuiet fun p => ?_) fun found => ?_
    · exact asksOnly_bind (addDocker_isQuiet p request) fun _ => asksOnly_pure _
    · cases found with
      | error e => exact asksOnly_pure _
      | ok report => exact hmocks report

end Docker

theorem Query.onHost_isQuiet [Libraries] (q : Query) (d : Docker) (h : q.IsQuiet) :
    AsksOnly HostQuery.IsQuiet (q.onHost d) := by
  cases q with
  | exec target command limit => exact d.exec_isQuiet target command limit
  | collect request => exact d.collect_isQuiet request
  | emit event => exact h.elim
  | sleepForever => exact .ask rfl fun r => Empty.elim r
  | _ => exact .ask rfl fun r => .done r

namespace Rehearsal.Machine

/-- A machine keeps the events in the order in which it gets them. -/
def log (m : Machine) : List Event := m.events.reverse

theorem respond_keeps : Responder.Keeps respond ⟨HostQuery.event?, log, fun _ => True⟩ where
  log := by
    intro q now m delay r m' h
    cases q with
    | launch program arguments limit =>
      simp only [respond] at h
      split at h <;> cases h <;> simp [log, record, HostQuery.event?]
    | sleepForever => cases h
    | _ =>
      cases h
      simp [log, HostQuery.event?]
  atOnce := by
    intro q now m delay r m' h htold
    cases q with
    | emit event =>
      cases h
      rfl
    | _ => cases htold
  good _ := trivial

/-- Whatever is asked of the machine to answer a question, it is told just what the question
tells. -/
theorem play_onHost [Libraries] (d : Docker) {q : Query} {now later : Nat} {m m' : Machine}
    {r : q.Answer} (h : (q.onHost d).play respond now m = some (r, later, m')) :
    m'.log = m.log ++ q.event?.toList := by
  have hlog := (Account.covers_of_play respond_keeps h).1
  have hruns := Script.runs_of_play h
  by_cases hq : q.IsQuiet
  · have hnone : ((q.onHost d).exchanges respond now m).filterMap (fun e => e.1.event?) = [] :=
      List.filterMap_eq_nil_iff.mpr ((q.onHost_isQuiet d hq).of_mem hruns)
    have hevent : q.event? = none := hq.event?
    simp only [hnone] at hlog
    rw [hlog, hevent]
    rfl
  · cases q with
    | emit event =>
      cases h
      simp [log, Query.event?]
    | _ => exact absurd trivial hq

theorem respondTo_keeps [Libraries] (d : Docker) :
    Responder.Keeps (respondTo d) ⟨Query.event?, log, fun _ => True⟩ where
  log := by
    intro q now m delay r m' h
    simp only [respondTo, Responder.through] at h
    cases hplay : (q.onHost d).play respond now m with
    | none => simp [hplay] at h
    | some result =>
      obtain ⟨answer, later, m₁⟩ := result
      simp only [hplay, Option.some.injEq, Prod.mk.injEq] at h
      obtain ⟨-, rfl, rfl⟩ := h
      exact play_onHost d hplay
  atOnce := by
    intro q now m delay r m' h htold
    cases q with
    | emit event =>
      cases h
      exact Nat.sub_self now
    | _ => cases htold
  good _ := trivial

end Rehearsal.Machine

end Assay

import Assay.Proofs.Probe.Questions

namespace Assay

open Script (Exchange AsksOnly runs_bind)

/-- What a question reports. -/
def Query.event? : Query → Option Event
  | .emit event => some event
  | _ => none

/-- What is reported by some exchanges, in order. -/
def eventsOf (es : List (Exchange Query.Answer)) : List Event := es.filterMap fun e => e.1.event?

@[simp]
theorem eventsOf_nil : eventsOf [] = [] := rfl

@[simp]
theorem eventsOf_append (es fs : List (Exchange Query.Answer)) :
    eventsOf (es ++ fs) = eventsOf es ++ eventsOf fs := List.filterMap_append

theorem eventsOf_cons (e : Exchange Query.Answer) (es : List (Exchange Query.Answer)) :
    eventsOf (e :: es) = e.1.event?.toList ++ eventsOf es := by
  simp only [eventsOf, List.filterMap_cons]
  cases e.1.event? <;> rfl

theorem eventsOf_flatten (ess : List (List (Exchange Query.Answer))) :
    eventsOf ess.flatten = (ess.map eventsOf).flatten := List.filterMap_flatten

instance : DecidablePred Query.IsProbe
  | .exec .. | .send .. | .connect .. => isTrue trivial
  | .sleep _ | .sleepForever | .clock | .emit _ | .collect _ => isFalse id

/-- The commands, requests and connections of some exchanges, with what came of them. -/
def callsOf (es : List (Exchange Query.Answer)) : List (Exchange Query.Answer) :=
  es.filter fun e => e.1.IsProbe

@[simp]
theorem callsOf_append (es fs : List (Exchange Query.Answer)) :
    callsOf (es ++ fs) = callsOf es ++ callsOf fs := List.filter_append es fs

theorem eventsOf_emit {event : Event} {es : List (Exchange Query.Answer)} {u : Unit}
    (h : (Run.emit event).Runs es u) : eventsOf es = [event] := by
  rw [Script.runs_query h]
  rfl

theorem Query.IsQuiet.event? {q : Query} (h : q.IsQuiet) : q.event? = none := by
  cases q with
  | emit event => exact h.elim
  | _ => rfl

theorem eventsOf_quiet {α : Type} {s t : Run α} {es : List (Exchange Query.Answer)}
    (h : AsksOnly Query.IsQuiet s) (hs : s.Reaches es t) : eventsOf es = [] :=
  List.filterMap_eq_nil_iff.mpr fun e he => (h.of_mem hs e he).event?

theorem eventsOf_quiet_bind {α β : Type} {s : Run α} {f : α → Run β}
    {es : List (Exchange Query.Answer)} {b : β} (hs : AsksOnly Query.IsQuiet s)
    (h : (s >>= f).Runs es b) : ∃ fs a, (f a).Runs fs b ∧ eventsOf es = eventsOf fs := by
  obtain ⟨fs, gs, a, hfirst, hrest, rfl⟩ := runs_bind h
  exact ⟨gs, a, hrest, by rw [eventsOf_append, eventsOf_quiet hs hfirst, List.nil_append]⟩

theorem eventsOf_emit_bind {β : Type} {event : Event} {f : Unit → Run β}
    {es : List (Exchange Query.Answer)} {b : β} (h : (Run.emit event >>= f).Runs es b) :
    ∃ fs, (f ()).Runs fs b ∧ eventsOf es = event :: eventsOf fs := by
  obtain ⟨fs, gs, u, hfirst, hrest, rfl⟩ := runs_bind h
  exact ⟨gs, hrest, by rw [eventsOf_append, eventsOf_emit hfirst, List.singleton_append]⟩

namespace Event

/-- The suite that an event is about. -/
def suite : Event → String
  | suiteStart suite .. | caseStart suite _ | casePass suite .. | caseFail suite ..
  | caseSkip suite .. | suiteEnd suite .. | log suite .. => suite

/-- The summary that the end of a suite tells. -/
def summary? : Event → Option Summary
  | suiteEnd suite passed failed skipped durationMs =>
    some ⟨suite, passed, failed, skipped, durationMs⟩
  | _ => none

def isStart : Event → Bool
  | suiteStart .. => true
  | _ => false

def isPass : Event → Bool
  | casePass .. => true
  | _ => false

def isFail : Event → Bool
  | caseFail .. => true
  | _ => false

def isSkip : Event → Bool
  | caseSkip .. => true
  | _ => false

end Event

namespace Tally

instance : Add Tally :=
  ⟨fun s t => ⟨s.passed + t.passed, s.failed + t.failed, s.skipped + t.skipped⟩⟩

def total (t : Tally) : Nat := t.passed + t.failed + t.skipped

/-- The cases that passed, failed and were left out according to some events. -/
def ofEvents (events : List Event) : Tally :=
  ⟨events.countP Event.isPass, events.countP Event.isFail, events.countP Event.isSkip⟩

theorem add_def (s t : Tally) :
    s + t = ⟨s.passed + t.passed, s.failed + t.failed, s.skipped + t.skipped⟩ := rfl

theorem add_assoc (s t u : Tally) : s + t + u = s + (t + u) := by
  simp only [add_def, Nat.add_assoc]

@[simp]
theorem zero_add (t : Tally) : ({} : Tally) + t = t := by
  simp only [add_def, Nat.zero_add]

@[simp]
theorem add_zero (t : Tally) : t + {} = t := rfl

theorem total_add (s t : Tally) : (s + t).total = s.total + t.total := by
  simp only [add_def, total]
  omega

@[simp]
theorem ofEvents_append (es fs : List Event) : ofEvents (es ++ fs) = ofEvents es + ofEvents fs := by
  simp only [ofEvents, List.countP_append, add_def]

end Tally

end Assay

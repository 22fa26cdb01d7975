import Assay.Proofs.Runner.Account

namespace Assay

open Script (Exchange AsksOnly)

variable {f : Event → Option Event} {α β σ : Type}

namespace Run

/-- A run whose reports go to somebody who passes them on, changed or not, or keeps them back. -/
def relay (f : Event → Option Event) : Run α → Run α
  | .done a => .done a
  | .ask (.emit event) next =>
    match f event with
    | some told => .ask (.emit told) fun u => relay f (next u)
    | none => relay f (next ())
  | .ask q next => .ask q fun a => relay f (next a)

/-- What is left of an exchange then. -/
def relayed (f : Event → Option Event) : Exchange Query.Answer → Option (Exchange Query.Answer)
  | ⟨.emit event, _⟩ => (f event).map fun told => ⟨.emit told, ()⟩
  | e => some e

theorem relay_kept {event told : Event} (h : f event = some told)
    (next : (Query.emit event).Answer → Run α) :
    relay f (.ask (.emit event) next) = .ask (.emit told) fun u => relay f (next u) := by
  simp only [relay, h]

theorem relay_dropped {event : Event} (h : f event = none)
    (next : (Query.emit event).Answer → Run α) :
    relay f (.ask (.emit event) next) = relay f (next ()) := by
  simp only [relay, h]

theorem relay_ask {q : Query} (h : q.IsQuiet) (next : q.Answer → Run α) :
    relay f (.ask q next) = .ask q fun a => relay f (next a) := by
  cases q with
  | emit event => exact h.elim
  | _ => rw [relay]; nofun

theorem relayed_ask {q : Query} (h : q.IsQuiet) (a : q.Answer) :
    relayed f ⟨q, a⟩ = some ⟨q, a⟩ := by
  cases q with
  | emit event => exact h.elim
  | _ => rfl

end Run

theorem Query.quiet_or_emit (q : Query) : q.IsQuiet ∨ ∃ event, q = .emit event := by
  cases q with
  | emit event => exact .inr ⟨event, rfl⟩
  | _ => exact .inl trivial

namespace Run

theorem relay_bind (s : Run α) (g : α → Run β) :
    relay f (s >>= g) = relay f s >>= fun a => relay f (g a) := by
  induction s with
  | done a => rfl
  | ask q next ih =>
    rw [Script.ask_bind]
    rcases q.quiet_or_emit with hq | ⟨event, rfl⟩
    · rw [relay_ask hq, relay_ask hq, Script.ask_bind]
      exact congrArg (Script.ask q) (funext ih)
    · cases h : f event with
      | some told =>
        rw [relay_kept h, relay_kept h, Script.ask_bind]
        exact congrArg (Script.ask _) (funext ih)
      | none =>
        rw [relay_dropped h, relay_dropped h]
        exact ih ()

theorem relay_eq {s : Run α} (h : AsksOnly (fun q => ∀ e, q.event? = some e → f e = some e) s) :
    relay f s = s := by
  induction h with
  | done a => rfl
  | @ask q next here rest ih =>
    rcases q.quiet_or_emit with hq | ⟨event, rfl⟩
    · rw [relay_ask hq]
      exact congrArg (Script.ask q) (funext ih)
    · rw [relay_kept (here event rfl)]
      exact congrArg (Script.ask _) (funext ih)

theorem relayed_kept {event told : Event} (h : f event = some told)
    (u : (Query.emit event).Answer) : relayed f ⟨.emit event, u⟩ = some ⟨.emit told, u⟩ := by
  simp only [relayed, h]
  rfl

theorem relayed_dropped {event : Event} (h : f event = none) (u : (Query.emit event).Answer) :
    relayed f ⟨.emit event, u⟩ = none := by
  simp only [relayed, h]
  rfl

theorem reaches_relay {s t : Run α} {es : List (Exchange Query.Answer)} (h : s.Reaches es t) :
    (relay f s).Reaches (es.filterMap (relayed f)) (relay f t) := by
  induction h with
  | refl s => exact .refl _
  | @ask q next r es t rest ih =>
    rcases q.quiet_or_emit with hq | ⟨event, rfl⟩
    · rw [relay_ask hq, List.filterMap_cons_some (relayed_ask hq r)]
      exact .ask ih
    · cases hf : f event with
      | some told =>
        rw [relay_kept hf, List.filterMap_cons_some (relayed_kept hf r)]
        exact .ask ih
      | none =>
        rw [relay_dropped hf, List.filterMap_cons_none (relayed_dropped hf r)]
        exact ih

theorem exists_of_runs_relay {s : Run α} {es : List (Exchange Query.Answer)} {a : α}
    (h : (relay f s).Runs es a) : ∃ fs, s.Runs fs a ∧ es = fs.filterMap (relayed f) := by
  induction s generalizing es with
  | done b =>
    obtain ⟨rfl, rfl⟩ := Script.runs_done h
    exact ⟨[], h, rfl⟩
  | ask q next ih =>
    rcases q.quiet_or_emit with hq | ⟨event, rfl⟩
    · rw [relay_ask hq, Script.runs_ask] at h
      obtain ⟨r, es, hes, rfl⟩ := h
      obtain ⟨fs, hfs, rfl⟩ := ih r hes
      exact ⟨⟨q, r⟩ :: fs, .ask hfs, by rw [List.filterMap_cons_some (relayed_ask hq r)]⟩
    · cases hf : f event with
      | some told =>
        rw [relay_kept hf, Script.runs_ask] at h
        obtain ⟨r, es, hes, rfl⟩ := h
        obtain ⟨fs, hfs, rfl⟩ := ih r hes
        exact ⟨⟨.emit event, r⟩ :: fs, .ask hfs,
          by rw [List.filterMap_cons_some (relayed_kept hf r)]⟩
      | none =>
        rw [relay_dropped hf] at h
        obtain ⟨fs, hfs, rfl⟩ := ih () h
        exact ⟨⟨.emit event, ()⟩ :: fs, .ask hfs,
          by rw [List.filterMap_cons_none (relayed_dropped hf ())]⟩

/-- Whoever passes on the reports of a run sees just the run, and sees it to its end. -/
theorem runs_relay {s : Run α} {es : List (Exchange Query.Answer)} {a : α} :
    (relay f s).Runs es a ↔ ∃ fs, s.Runs fs a ∧ es = fs.filterMap (relayed f) := by
  constructor
  · exact exists_of_runs_relay
  · rintro ⟨fs, h, rfl⟩
    exact reaches_relay h

end Run

/-- Reports take no time in this world, and nobody in it acts on them. -/
def Responder.Deaf (respond : Responder Query.Answer σ) : Prop :=
  ∀ event now w, respond (.emit event) now w = some (0, (), w)

theorem Responder.Deaf.recorded_emit {respond : Responder Query.Answer σ} (deaf : respond.Deaf)
    {event : Event} (next : (Query.emit event).Answer → Run α) (now : Nat) (w : σ) :
    Script.recorded respond (.ask (.emit event) next) now w =
      ((next ()).recorded respond now w).map (Prod.map (⟨.emit event, ()⟩ :: ·) id) :=
  (Script.recorded_ask _ next).trans (congrArg (Option.bind · _) (deaf event now w))

theorem Run.recorded_relay {respond : Responder Query.Answer σ} (deaf : respond.Deaf) (s : Run α)
    (now : Nat) (w : σ) :
    (relay f s).recorded respond now w =
      (s.recorded respond now w).map (Prod.map (·.filterMap (relayed f)) id) := by
  induction s generalizing now w with
  | done a => rfl
  | ask q next ih =>
    rcases q.quiet_or_emit with hq | ⟨event, rfl⟩
    · rw [relay_ask hq, Script.recorded_ask, Script.recorded_ask, Option.map_bind]
      congr 1
      funext answer
      rw [ih, Function.comp_apply, Option.map_map, Option.map_map]
      congr 1
      funext x
      exact congrArg (·, x.2) (List.filterMap_cons_some (relayed_ask hq answer.2.1)).symm
    · have hrest := ih () now w
      rw [deaf.recorded_emit, Option.map_map]
      cases hf : f event with
      | some told =>
        rw [relay_kept hf, deaf.recorded_emit, hrest, Option.map_map]
        congr 1
        funext x
        exact congrArg (·, x.2) (List.filterMap_cons_some (relayed_kept hf ())).symm
      | none =>
        rw [relay_dropped hf, hrest]
        congr 1
        funext x
        exact congrArg (·, x.2) (List.filterMap_cons_none (relayed_dropped hf ())).symm

theorem callsOf_relayed (es : List (Exchange Query.Answer)) :
    callsOf (es.filterMap (Run.relayed f)) = callsOf es := by
  induction es with
  | nil => rfl
  | cons e es ih =>
    obtain ⟨q, a⟩ := e
    rcases q.quiet_or_emit with hq | ⟨event, rfl⟩
    · rw [List.filterMap_cons_some (Run.relayed_ask hq a)]
      simp only [callsOf, List.filter_cons] at ih ⊢
      rw [ih]
    · have hemit : callsOf (⟨.emit event, a⟩ :: es) = callsOf es := rfl
      rw [hemit, ← ih]
      cases hf : f event with
      | some told =>
        rw [List.filterMap_cons_some (Run.relayed_kept hf a)]
        rfl
      | none => rw [List.filterMap_cons_none (Run.relayed_dropped hf a)]

theorem eventsOf_relayed (es : List (Exchange Query.Answer)) :
    eventsOf (es.filterMap (Run.relayed f)) = (eventsOf es).filterMap f := by
  simp only [eventsOf, List.filterMap_filterMap]
  congr 1
  funext e
  obtain ⟨q, a⟩ := e
  rcases q.quiet_or_emit with hq | ⟨event, rfl⟩
  · rw [Run.relayed_ask hq, Option.bind_some, hq.event?]
    rfl
  · cases hf : f event with
    | some told =>
      rw [Run.relayed_kept hf, Query.event?, Option.bind_some, Option.bind_some, hf]
      rfl
    | none =>
      rw [Run.relayed_dropped hf, Query.event?, Option.bind_some, hf]
      rfl

end Assay

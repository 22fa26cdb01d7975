import Assay.Proofs.Runner.Polling

namespace Assay

open Script (Exchange AsksOnly recorded_bind_eq_some recorded_query_eq_some le_of_recorded
  recorded_eq_some_iff)

variable {σ : Type} {respond : Responder Query.Answer σ} {slack now later : Nat} {s s' : σ}
  {es : List (Exchange Query.Answer)}

/-- The status that a request is answered with, whatever becomes of the body. -/
def HttpReply.status? : HttpReply → Option Nat
  | response status _ _ | stalled status | broken status => some status
  | unreachable | silent => none

/-- A probe for health: one request, which succeeds when it is answered with a status of success.
Nothing is asked at an address that cannot be read. -/
inductive HealthWait.IsPoll [Libraries] (w : HealthWait) (base : String) :
    List (Exchange Query.Answer) → Bool → Prop
  | asked {url : Url} {reply : HttpReply} {passed : Bool}
    (readable : Libraries.readAddress (w.url base) = .web url)
    (verdict : passed = true ↔ ∃ n, reply.status? = some n ∧ 200 ≤ n ∧ n < 300) :
    IsPoll w base [⟨.send ⟨"GET", url, [], none⟩ probeLimit, reply⟩] passed
  | unasked (unreadable : ∀ url, Libraries.readAddress (w.url base) ≠ .web url) :
    IsPoll w base [] false

/-- How long a connection is waited for. -/
def PortWait.patience (w : PortWait) : Duration := ⟨min probeLimit.millis w.limit.millis⟩

/-- A probe of a port: one connection, which is accepted or not. -/
inductive PortWait.IsPoll (w : PortWait) : List (Exchange Query.Answer) → Bool → Prop
  | asked (passed : Bool) : IsPoll w [⟨.connect w.machine w.port w.patience, passed⟩] passed

theorem HealthWait.isPoll [Libraries] {w : HealthWait} {base : String} {found : Bool}
    (time : respond.KeepsTime slack)
    (h : (w.probe base).recorded respond now s = some (es, found, later, s')) :
    w.IsPoll base es found ∧ now ≤ later ∧ later ≤ now + probeLimit.millis := by
  have hle := le_of_recorded h
  unfold HealthWait.probe at h
  split at h
  next url hurl =>
    obtain ⟨_, gs, reply, _, s₁, hsend, hdone, rfl⟩ := recorded_bind_eq_some h
    obtain ⟨delay, hanswer, rfl, rfl⟩ := recorded_query_eq_some hsend
    have hlimit : delay ≤ probeLimit.millis := time _ _ _ _ _ _ hanswer
    cases reply with
    | response n _ _ | stalled n | broken n =>
      cases hdone
      exact ⟨.asked hurl (by simp [HttpReply.status?]), hle, by omega⟩
    | unreachable | silent =>
      cases hdone
      exact ⟨.asked hurl (by simp [HttpReply.status?]), hle, by omega⟩
  next hurl =>
    cases h
    exact ⟨.unasked hurl, hle, by omega⟩

theorem HealthWait.isSlow [Libraries] {w : HealthWait} {base : String} {url : Url}
    (hread : Libraries.readAddress (w.url base) = .web url)
    (hsend : ∀ request now s delay reply s',
      respond (.send request probeLimit) now s = some (delay, reply, s') → 0 < delay) :
    IsSlow respond (w.probe base) := by
  intro now s found later s' hplay
  have h := recorded_eq_some_iff.mpr ⟨hplay, rfl⟩
  simp only [HealthWait.probe, hread] at h
  obtain ⟨_, _, reply, _, s₁, hquery, hrest, -⟩ := recorded_bind_eq_some h
  obtain ⟨delay, hanswer, -, rfl⟩ := recorded_query_eq_some hquery
  have hpos := hsend _ _ _ _ _ _ hanswer
  have hle := le_of_recorded hrest
  omega

theorem PortWait.isPoll {w : PortWait} {found : Bool} (time : respond.KeepsTime slack)
    (h : w.probe.recorded respond now s = some (es, found, later, s')) :
    w.IsPoll es found ∧ now ≤ later ∧ later ≤ now + w.patience.millis := by
  obtain ⟨delay, hanswer, rfl, rfl⟩ := recorded_query_eq_some h
  have hlimit : delay ≤ w.patience.millis := time _ _ _ _ _ _ hanswer
  exact ⟨.asked found, by omega, by omega⟩

namespace SetupEntry

variable {suite : Suite} {settings : StepSettings} {ctx : Context}

/-- An entry that waits keeps to its bounds at any time, where sleeps last too long by `slack` at
most. Only a wait in vain is reported, and what comes next goes on from the context as it was. -/
def Waits (respond : Responder Query.Answer σ) (script : Run Context) (suite : Suite)
    (ctx : Context) (IsPoll : List (Exchange Query.Answer) → Bool → Prop) (slack : Nat)
    (limit pause longest : Duration) (warning : String) : Prop :=
  ∀ now s, ∃ polls found later s',
    script.play respond now s = some (ctx, later, s') ∧
    Waited IsPoll slack limit pause longest now polls found later ∧
    callsOf (script.exchanges respond now s) = polls.flatMap Poll.own ∧
    eventsOf (script.exchanges respond now s) =
      (if found then [] else [.log suite.name .warn warning]) ∧
    ∀ (β : Type) (k : Context → Run β),
      (script >>= k).play respond now s = (k ctx).play respond later s'

/-- A wait in a world that answers and keeps time comes to its end, and it reports nothing. -/
theorem exists_waited {probe : Run Bool} {limit pause longest : Duration}
    {IsPoll : List (Exchange Query.Answer) → Bool → Prop} (answers : respond.Answers)
    (time : respond.KeepsTime slack) (hprobe : AsksOnly Query.IsProbe probe)
    (hslow : pause.millis = 0 → IsSlow respond probe)
    (hpoll : ∀ now s es found later s', probe.recorded respond now s = some (es, found, later, s') →
      IsPoll es found ∧ now ≤ later ∧ later ≤ now + longest.millis) (now : Nat) (s : σ) :
    ∃ es polls found later s',
      (poll probe limit pause).recorded respond now s = some (es, found, later, s') ∧
      Waited IsPoll slack limit pause longest now polls found later ∧
      callsOf es = polls.flatMap Poll.own ∧ eventsOf es = [] := by
  have hanswers : AsksOnly Query.HasAnswer (poll probe limit pause) :=
    poll_asksOnly (fun _ => Query.IsErrand.hasAnswer) trivial
      (hprobe.mono fun _ hq => hq.isErrand.hasAnswer) limit pause
  have hquiet : AsksOnly Query.IsQuiet (poll probe limit pause) :=
    poll_asksOnly (fun _ => Query.IsErrand.isQuiet) trivial
      (hprobe.mono fun _ hq => hq.isErrand.isQuiet) limit pause
  obtain ⟨⟨found, later, s'⟩, hplay⟩ :=
    Option.isSome_iff_exists.mp (Script.play_isSome hanswers answers now s)
  have hrecorded := recorded_eq_some_iff.mpr ⟨hplay, rfl⟩
  obtain ⟨polls, hpolls, hown⟩ := polling_of_poll time hprobe hslow hrecorded
  refine ⟨_, polls, found, later, s', hrecorded, hpolls.waited ?_, hown,
    eventsOf_quiet hquiet (Script.runs_of_play hplay)⟩
  rintro p ⟨s, s', hp⟩
  exact hpoll _ _ _ _ _ _ hp

/-- What is done behind a wait. -/
def afterWait (suite : Suite) (ctx : Context) (warning : String) (found : Bool) : Run Context := do
  if !found then suite.log .warn warning
  pure ctx

theorem exists_reported (answers : respond.Answers) (time : respond.KeepsTime slack) (suite : Suite)
    (ctx : Context) (warning : String) (found : Bool) (now : Nat) (s : σ) :
    ∃ es s', (afterWait suite ctx warning found).recorded respond now s = some (es, ctx, now, s') ∧
      callsOf es = [] ∧
      eventsOf es = if found then [] else [.log suite.name .warn warning] := by
  cases found with
  | true => exact ⟨[], s, rfl, rfl, rfl⟩
  | false =>
    let event : Event := .log suite.name .warn warning
    obtain ⟨⟨delay, _, s'⟩, hanswer⟩ :=
      Option.isSome_iff_exists.mp (answers (.emit event) now s trivial)
    obtain rfl : delay = 0 := time _ _ _ _ _ _ hanswer
    refine ⟨[⟨.emit event, ()⟩], s', ?_, rfl, rfl⟩
    have hask : afterWait suite ctx warning false = .ask (.emit event) fun _ => pure ctx := rfl
    rw [hask, Script.recorded_ask, hanswer]
    rfl

theorem waits_of_poll {probe : Run Bool} {limit pause longest : Duration} {warning : String}
    {IsPoll : List (Exchange Query.Answer) → Bool → Prop} (answers : respond.Answers)
    (time : respond.KeepsTime slack) (hprobe : AsksOnly Query.IsProbe probe)
    (hslow : pause.millis = 0 → IsSlow respond probe)
    (hpoll : ∀ now s es found later s', probe.recorded respond now s = some (es, found, later, s') →
      IsPoll es found ∧ now ≤ later ∧ later ≤ now + longest.millis) :
    Waits respond (poll probe limit pause >>= afterWait suite ctx warning) suite ctx IsPoll slack
      limit pause longest warning := by
  intro now s
  obtain ⟨es, polls, found, later, s₁, hwait, hwaited, hown, hsilent⟩ :=
    exists_waited answers time hprobe hslow hpoll now s
  obtain ⟨fs, s₂, hreport, hnone, htold⟩ :=
    exists_reported answers time suite ctx warning found later s₁
  obtain ⟨hplay, hexchanges⟩ :=
    recorded_eq_some_iff.mp (Script.recorded_bind_of_recorded hwait hreport)
  refine ⟨polls, found, later, s₂, hplay, hwaited, ?_, ?_, fun β k => ?_⟩
  · rw [hexchanges, callsOf_append, hown, hnone, List.append_nil]
  · rw [hexchanges, eventsOf_append, hsilent, htold, List.nil_append]
  · exact Script.play_bind_of_play hplay k

/-- A wait for health or for a port makes a first probe, goes on until a probe succeeds or the next
one would come after the deadline, and ends at most one probe after it. Where a sleep lasts longer
than asked, the last probe begins and ends that much later, and nothing else changes. -/
theorem waits_bounded [Libraries] (answers : respond.Answers) (time : respond.KeepsTime slack)
    (suite : Suite) (settings : StepSettings) (ctx : Context) :
    (∀ w : HealthWait, (w.pause.millis = 0 → IsSlow respond (w.probe settings.baseUrl)) →
      Waits respond ((waitForHealth w).run suite settings ctx) suite ctx
        (w.IsPoll settings.baseUrl) slack w.limit w.pause probeLimit
        (w.warning settings.baseUrl)) ∧
    ∀ w : PortWait, Waits respond ((waitForPort w).run suite settings ctx) suite ctx w.IsPoll slack
      w.limit PortWait.pollPause w.patience w.warning := by
  constructor
  · intro w hslow
    exact waits_of_poll answers time (w.probe_asksOnly settings.baseUrl) hslow
      fun _ _ _ _ _ _ => HealthWait.isPoll time
  · intro w
    have hpause : PortWait.pollPause.millis = 0 → IsSlow respond w.probe := nofun
    exact waits_of_poll answers time w.probe_asksOnly hpause fun _ _ _ _ _ _ => PortWait.isPoll time

end SetupEntry

namespace Rehearsal

/-- A world that counts what it is probed by: requests are refused twice before one is answered, and
nobody accepts a connection. It sleeps a millisecond too long. -/
def sluggish : Responder Query.Answer Nat
  | .exec .., _, n => some (0, .error (.remote "nobody"), n)
  | .send _ limit, _, n =>
    some (min limit.millis 2, if n < 2 then .response 503 [] [] else .stalled 204, n + 1)
  | .connect _ _ limit, _, n => some (limit.millis, false, n + 1)
  | .sleep nanos, _, n => some (sleepMillis nanos + 1, (), n)
  | .sleepForever, _, _ => none
  | .clock, now, n => some (0, now, n)
  | .emit _, _, n => some (0, (), n)
  | .collect _, _, n => some (0, .error (.remote "nobody"), n)

theorem sluggish_answers : Responder.Answers sluggish := by
  intro q now n h
  cases q with
  | sleepForever => exact h.elim
  | _ => rfl

theorem sluggish_keepsTime : Responder.KeepsTime sluggish 1 := by
  intro q now n delay r n' h
  cases q with
  | sleepForever => cases h
  | send =>
    cases h
    exact Nat.min_le_left ..
  | _ =>
    cases h
    simp [Query.Lasts]

theorem exists_web {a : Address} (h : (match a with | .web _ => true | _ => false) = true) :
    ∃ url, a = .web url := by
  cases a with
  | web url => exact ⟨url, rfl⟩
  | foreign text | malformed => cases h

/-- Without a pause between its probes, and with a probe that takes longer than there is time
for. -/
theorem waits_bounded_sluggish :
    let w : HealthWait := ⟨some ⟨10⟩, none, some ⟨0⟩⟩
    let v : PortWait := ⟨5432, none, some ⟨600⟩⟩
    let settings : StepSettings := ⟨"http://localhost", none, none⟩
    let health := (SetupEntry.waitForHealth w).run idleSuite settings .empty
    let port := (SetupEntry.waitForPort v).run idleSuite settings .empty
    Responder.Answers sluggish ∧ Responder.KeepsTime sluggish 1 ∧
      w.pause.millis = 0 ∧ IsSlow sluggish (w.probe settings.baseUrl) ∧
      SetupEntry.Waits sluggish health idleSuite .empty (w.IsPoll settings.baseUrl) 1 w.limit
        w.pause probeLimit (w.warning settings.baseUrl) ∧
      (health.play sluggish 0 0).map Prod.snd = some (8, 3) ∧
      SetupEntry.Waits sluggish port idleSuite .empty v.IsPoll 1 v.limit PortWait.pollPause
        v.patience v.warning ∧
      (port.play sluggish 0 0).map Prod.snd = some (600, 1) := by
  intro w v settings health port
  obtain ⟨hhealth, hport⟩ := SetupEntry.waits_bounded sluggish_answers sluggish_keepsTime idleSuite
    settings .empty
  obtain ⟨url, hread⟩ : ∃ url, Libraries.readAddress (w.url settings.baseUrl) = .web url :=
    exists_web (by decide +kernel)
  have hslow : IsSlow sluggish (w.probe settings.baseUrl) := by
    refine HealthWait.isSlow hread ?_
    rintro request now n delay reply n' ⟨⟩
    decide
  exact ⟨sluggish_answers, sluggish_keepsTime, rfl, hslow, hhealth w fun _ => hslow,
    by decide +kernel, hport v, by decide +kernel⟩

end Rehearsal

end Assay

import Assay.Libraries.BuiltIn
import Assay.Probe.Step
import Assay.Proofs.Document.Reads
import Assay.Proofs.Json.Range
import Assay.Proofs.Suite.Loaded
import Assay.Proofs.Yaml.Untyped
import Assay.Suite.Load

namespace Assay

open Decoder (text_reads looseText_reads bool_reads value_reads fields_reads list_reads)
open Record (required_reads optional_reads)

variable {ctx : Context}

/-- A JSON part that is not null has its texts filled. -/
def Context.FillsPart (ctx : Context) (x y : Option Value) : Prop :=
  x ≠ some .null → y = x.map ctx.resolve

/-- Durations up to `2 ^ 53` milliseconds, more than 285 millennia, stay as they are. -/
def Duration.Kept (x y : Option Duration) : Prop := (∀ d ∈ x, d.millis ≤ 2 ^ 53) → y = x

structure RequestStep.Filled (ctx : Context) (s t : RequestStep) : Prop where
  method : t.method = ctx.fill s.method
  path : t.path = s.path.map ctx.fill
  url : t.url = s.url.map ctx.fill
  headers : t.headers = ctx.resolveFields s.headers
  body : ctx.FillsPart s.body t.body
  timeout : Duration.Kept s.timeout t.timeout

structure ExecStep.Filled (ctx : Context) (s t : ExecStep) : Prop where
  command : t.command = ctx.fill s.command
  container : t.container = s.container.map ctx.fill

structure FileStep.Filled (ctx : Context) (s t : FileStep) : Prop where
  path : t.path = ctx.fill s.path
  container : t.container = s.container.map ctx.fill
  present : t.present = s.present
  permissions : t.permissions = s.permissions.map ctx.fill
  owner : t.owner = s.owner.map ctx.fill
  size : t.size = s.size
  contains : t.contains = s.contains.map ctx.fill
  lacks : t.lacks = s.lacks.map ctx.fill
  pattern : t.pattern = s.pattern.map ctx.fill
  json : ctx.FillsPart s.json t.json

structure ProcessStep.Filled (ctx : Context) (s t : ProcessStep) : Prop where
  name : t.name = ctx.fill s.name
  container : t.container = s.container.map ctx.fill
  running : t.running = s.running
  count : t.count = s.count
  user : t.user = s.user.map ctx.fill

structure PortStep.Filled (ctx : Context) (s t : PortStep) : Prop where
  port : t.port = s.port
  host : t.host = s.host.map ctx.fill
  container : t.container = s.container.map ctx.fill
  listening : t.listening = s.listening
  timeout : Duration.Kept s.timeout t.timeout

/-- An action of the same kind whose texts were filled, field by field. -/
inductive Action.Filled (ctx : Context) : Action → Action → Prop
  | request {s t : RequestStep} (h : s.Filled ctx t) : Filled ctx (.request s) (.request t)
  | exec {s t : ExecStep} (h : s.Filled ctx t) : Filled ctx (.exec s) (.exec t)
  | file {s t : FileStep} (h : s.Filled ctx t) : Filled ctx (.file s) (.file t)
  | process {s t : ProcessStep} (h : s.Filled ctx t) : Filled ctx (.process s) (.process t)
  | port {s t : PortStep} (h : s.Filled ctx t) : Filled ctx (.port s) (.port t)

/-- How long an action may take, where it says so. -/
def Action.timeout : Action → Option Duration
  | .request s => s.timeout
  | .port s => s.timeout
  | .exec _ | .file _ | .process _ => none

structure OutputExpectation.Filled (ctx : Context) (e f : OutputExpectation) : Prop where
  contains : f.contains = e.contains.map ctx.fill
  lacks : f.lacks = e.lacks.map ctx.fill
  pattern : f.pattern = e.pattern.map ctx.fill
  json : ctx.FillsPart e.json f.json
  length : f.length = e.length

def ExpressionList.fill (ctx : Context) : ExpressionList → ExpressionList
  | one e => one (ctx.fill e)
  | many es => many (es.map ctx.fill)

/-- An expectation whose texts were filled, field by field. -/
structure Expectation.Filled (ctx : Context) (e f : Expectation) : Prop where
  status : ctx.FillsPart e.status f.status
  headers : f.headers = e.headers.map ctx.resolveFields
  body : ctx.FillsPart e.body f.body
  output : Option.Rel (OutputExpectation.Filled ctx) e.output f.output
  exitCode : f.exitCode = e.exitCode
  expressions : f.expressions = e.expressions.map (ExpressionList.fill ctx)
  all : f.all = e.all.map (List.map ctx.resolve)
  any : f.any = e.any.map (List.map ctx.resolve)

namespace Decoder

theorem optionalText_reads {dec : Decoder String}
    (h : ∀ s, dec.Reads ctx (.string s) (ctx.fill s)) (x : Option String) :
    (nullable dec).Reads ctx (.optionalText x) (x.map ctx.fill) :=
  .ofOption nofun fun s _ => h s

theorem optionalBool_reads (x : Option Bool) :
    (nullable bool).Reads ctx (.optionalBool x) x := by
  have h : (nullable bool).Reads ctx (.optionalBool x) (x.map id) :=
    .ofOption nofun fun b _ => bool_reads b
  rwa [Option.map_id] at h

theorem part_reads (ctx : Context) {x : Option Value} (h : ∀ v ∈ x, v.Settled) :
    ∃ y, (nullable value).Reads ctx (.ofOption id x) y ∧ ctx.FillsPart x y := by
  cases x with
  | none => exact ⟨none, nullable_null, fun _ => rfl⟩
  | some v =>
    by_cases hv : v = .null
    · subst hv
      exact ⟨none, nullable_null, fun hne => absurd rfl hne⟩
    · exact ⟨_, (value_reads (h v rfl)).nullable hv, fun _ => rfl⟩

end Decoder

theorem LooseScalar.text_reads (ctx : Context) (s : String) :
    decode.Reads ctx (.string s) (.text (ctx.fill s)) := rfl

theorem Duration.reads {d : Duration} (h : d.millis ≤ limit) :
    decode.Reads ctx d.toValue d.reread := by
  have hresolve : ctx.resolve d.toValue = d.toValue := congrArg Value.string (fill_text ctx d)
  unfold Decoder.Reads
  rw [hresolve]
  exact decode_toValue .jsonValue h

theorem Duration.optional_reads {x : Option Duration} (h : ∀ d ∈ x, d.millis ≤ limit) :
    (Decoder.nullable decode).Reads ctx (.ofOption toValue x) (x.map reread) :=
  .ofOption nofun fun d hd => reads (h d hd)

theorem Duration.kept_reread (x : Option Duration) : Kept x (x.map reread) := by
  intro hx
  cases x with
  | none => rfl
  | some d => rw [Option.map_some, reread_eq_self (hx d rfl)]

theorem Comparison.reads {c : Comparison} (h : c.bound.Representable) :
    decode.Reads ctx c.toValue c := by
  have htext := LooseScalar.text_reads ctx c.text
  rw [fill_text] at htext
  refine bind_eq_ok.mpr ⟨.text c.text, htext, ?_⟩
  rw [ofScalar, parse?_text h]

theorem Comparison.optional_reads {x : Option Comparison} (h : ∀ c ∈ x, c.bound.Representable) :
    (Decoder.nullable decode).Reads ctx (.ofOption toValue x) x := by
  have hx : (Decoder.nullable decode).Reads ctx (.ofOption toValue x) (x.map id) :=
    .ofOption nofun fun c hc => reads (h c hc)
  rwa [Option.map_id] at hx

theorem RequestStep.reads (ctx : Context) {s : RequestStep} (h : s.Loaded) :
    ∃ t, decode.Reads ctx s.toValue t ∧ s.Filled ctx t ∧
      t.timeout = s.timeout.map Duration.reread := by
  obtain ⟨body, hbody, hfills⟩ := Decoder.part_reads ctx h.body
  have hkept := Duration.kept_reread s.timeout
  have hkeys : record.names.Nodup := by decide
  refine ⟨⟨_, _, _, _, body, s.timeout.map .reread⟩, ?_,
    ⟨rfl, rfl, rfl, rfl, hfills, hkept⟩, rfl⟩
  refine Record.Reads.decode ?_ _ ?_
  · exact hkeys
  refine .seq (.seq (.seq (.seq (.seq (.map ?_) ?_) ?_) ?_) ?_) ?_
  · exact optional_reads rfl (text_reads s.method)
  · exact optional_reads rfl (Decoder.optionalText_reads text_reads s.path)
  · exact optional_reads rfl (Decoder.optionalText_reads text_reads s.url)
  · exact optional_reads rfl (fields_reads h.headers)
  · exact optional_reads rfl hbody
  · exact optional_reads rfl (Duration.optional_reads h.timeout)

theorem ExecStep.reads (ctx : Context) (s : ExecStep) :
    ∃ t, decode.Reads ctx s.toValue t ∧ s.Filled ctx t := by
  have hkeys : record.names.Nodup := by decide
  refine ⟨⟨_, _⟩, ?_, ⟨rfl, rfl⟩⟩
  refine Record.Reads.decode ?_ _ ?_
  · exact hkeys
  refine .seq (.map ?_) ?_
  · exact required_reads rfl (text_reads s.command)
  · exact optional_reads rfl (Decoder.optionalText_reads text_reads s.container)

theorem FileStep.reads (ctx : Context) {s : FileStep} (h : s.Loaded) :
    ∃ t, decode.Reads ctx s.toValue t ∧ s.Filled ctx t := by
  have hkeys : record.names.Nodup := by decide
  obtain ⟨json, hjson, hfills⟩ := Decoder.part_reads ctx h.json
  refine ⟨⟨_, _, _, _, _, _, _, _, _, json⟩, ?_,
    ⟨rfl, rfl, rfl, rfl, rfl, rfl, rfl, rfl, rfl, hfills⟩⟩
  refine Record.Reads.decode ?_ _ ?_
  · exact hkeys
  refine .seq (.seq (.seq (.seq (.seq (.seq (.seq (.seq (.seq (.map ?_) ?_) ?_) ?_) ?_) ?_) ?_)
    ?_) ?_) ?_
  · exact required_reads rfl (text_reads s.path)
  · exact optional_reads rfl (Decoder.optionalText_reads text_reads s.container)
  · exact optional_reads rfl (Decoder.optionalBool_reads s.present)
  · exact optional_reads rfl (Decoder.optionalText_reads looseText_reads s.permissions)
  · exact optional_reads rfl (Decoder.optionalText_reads text_reads s.owner)
  · exact optional_reads rfl (Comparison.optional_reads h.size)
  · exact optional_reads rfl (Decoder.optionalText_reads text_reads s.contains)
  · exact optional_reads rfl (Decoder.optionalText_reads text_reads s.lacks)
  · exact optional_reads rfl (Decoder.optionalText_reads text_reads s.pattern)
  · exact optional_reads rfl hjson

theorem ProcessStep.reads (ctx : Context) {s : ProcessStep} (h : s.Loaded) :
    ∃ t, decode.Reads ctx s.toValue t ∧ s.Filled ctx t := by
  have hkeys : record.names.Nodup := by decide
  refine ⟨⟨_, _, _, _, _⟩, ?_, ⟨rfl, rfl, rfl, rfl, rfl⟩⟩
  refine Record.Reads.decode ?_ _ ?_
  · exact hkeys
  refine .seq (.seq (.seq (.seq (.map ?_) ?_) ?_) ?_) ?_
  · exact required_reads rfl (text_reads s.name)
  · exact optional_reads rfl (Decoder.optionalText_reads text_reads s.container)
  · exact optional_reads rfl (Decoder.optionalBool_reads s.running)
  · exact optional_reads rfl (Comparison.optional_reads h.count)
  · exact optional_reads rfl (Decoder.optionalText_reads text_reads s.user)

theorem PortStep.reads (ctx : Context) {s : PortStep} (h : s.Loaded) :
    ∃ t, decode.Reads ctx s.toValue t ∧ s.Filled ctx t ∧
      t.timeout = s.timeout.map Duration.reread := by
  have hkept := Duration.kept_reread s.timeout
  have hkeys : record.names.Nodup := by decide
  refine ⟨⟨_, _, _, _, s.timeout.map .reread⟩, ?_, ⟨rfl, rfl, rfl, rfl, hkept⟩, rfl⟩
  refine Record.Reads.decode ?_ _ ?_
  · exact hkeys
  refine .seq (.seq (.seq (.seq (.map ?_) ?_) ?_) ?_) ?_
  · exact required_reads rfl (Decoder.unsigned_reads h.port)
  · exact optional_reads rfl (Decoder.optionalText_reads text_reads s.host)
  · exact optional_reads rfl (Decoder.optionalText_reads text_reads s.container)
  · exact optional_reads rfl (Decoder.optionalBool_reads s.listening)
  · exact optional_reads rfl (Duration.optional_reads h.timeout)

theorem OutputExpectation.reads (ctx : Context) {e : OutputExpectation} (h : e.Loaded) :
    ∃ f, decode.Reads ctx e.toValue f ∧ e.Filled ctx f := by
  have hkeys : record.names.Nodup := by decide
  obtain ⟨json, hjson, hfills⟩ := Decoder.part_reads ctx h.json
  refine ⟨⟨_, _, _, json, _⟩, ?_, ⟨rfl, rfl, rfl, hfills, rfl⟩⟩
  refine Record.Reads.decode ?_ _ ?_
  · exact hkeys
  refine .seq (.seq (.seq (.seq (.map ?_) ?_) ?_) ?_) ?_
  · exact optional_reads rfl (Decoder.optionalText_reads text_reads e.contains)
  · exact optional_reads rfl (Decoder.optionalText_reads text_reads e.lacks)
  · exact optional_reads rfl (Decoder.optionalText_reads text_reads e.pattern)
  · exact optional_reads rfl hjson
  · exact optional_reads rfl (Comparison.optional_reads h.length)

theorem OutputExpectation.optional_reads (ctx : Context) {x : Option OutputExpectation}
    (h : ∀ e ∈ x, e.Loaded) :
    ∃ y, (Decoder.nullable decode).Reads ctx (.ofOption toValue x) y ∧
      Option.Rel (OutputExpectation.Filled ctx) x y := by
  cases x with
  | none => exact ⟨none, Decoder.nullable_null, .none⟩
  | some e =>
    obtain ⟨f, hf, hfilled⟩ := reads ctx (h e rfl)
    exact ⟨some f, hf.nullable nofun, .some hfilled⟩

theorem ExpressionList.reads (e : ExpressionList) : decode.Reads ctx e.toValue (e.fill ctx) := by
  have htexts (es : List String) :
      (Document.ofValues (ctx.resolveAll (es.map .string))).mapM textOnly? =
        some (es.map ctx.fill) := by
    rw [ctx.resolveAll_eq, Document.ofValues_eq]
    induction es with
    | nil => rfl
    | cons e es ih =>
      rw [List.map_cons, List.map_cons, List.map_cons, List.mapM_cons, ih]
      rfl
  cases e with
  | one e => rfl
  | many es =>
    have hmany := htexts es
    unfold Decoder.Reads decode toValue Value.strings Context.resolve Document.ofValue
    dsimp only [textOnly?]
    rw [hmany]
    rfl

theorem ExpressionList.toValue_ne_null (e : ExpressionList) : e.toValue ≠ .null := by
  cases e <;> nofun

theorem Decoder.int64_reads {n : Int} (h : -(2 ^ 63 : Int) ≤ n ∧ n < 2 ^ 63) :
    int64.Reads ctx (.int n) n := by
  apply integer_reads
  · rw [Nat.pow_eq]
    omega
  · rw [Nat.pow_eq]
    omega

theorem Expectation.reads (ctx : Context) {e : Expectation} (h : e.Loaded) :
    ∃ f, decode.Reads ctx e.toValue f ∧ e.Filled ctx f := by
  have hkeys : record.names.Nodup := by decide
  obtain ⟨status, hstatus, hfillsStatus⟩ := Decoder.part_reads ctx h.status
  obtain ⟨body, hbody, hfillsBody⟩ := Decoder.part_reads ctx h.body
  obtain ⟨output, houtput, hfillsOutput⟩ := OutputExpectation.optional_reads ctx h.output
  refine ⟨⟨status, _, body, output, _, _, _, _⟩, ?_,
    ⟨hfillsStatus, rfl, hfillsBody, hfillsOutput, rfl, rfl, rfl, rfl⟩⟩
  refine Record.Reads.decode ?_ _ ?_
  · exact hkeys
  refine .seq (.seq (.seq (.seq (.seq (.seq (.seq (.map ?_) ?_) ?_) ?_) ?_) ?_) ?_) ?_
  · exact Record.optional_reads rfl hstatus
  · exact Record.optional_reads rfl (.ofOption nofun fun fs hfs => fields_reads (h.headers fs hfs))
  · exact Record.optional_reads rfl hbody
  · exact Record.optional_reads rfl houtput
  · have hexit : (Decoder.nullable Decoder.int64).Reads ctx (.ofOption .int e.exitCode)
        (e.exitCode.map id) :=
      .ofOption nofun fun n hn => Decoder.int64_reads (h.exitCode n hn)
    rw [Option.map_id] at hexit
    exact Record.optional_reads rfl hexit
  · exact Record.optional_reads rfl (.ofOption ExpressionList.toValue_ne_null fun x _ => x.reads)
  · exact Record.optional_reads rfl (.ofOption nofun fun vs hvs => list_reads (h.all vs hvs))
  · exact Record.optional_reads rfl (.ofOption nofun fun vs hvs => list_reads (h.any vs hvs))

theorem Action.reads (ctx : Context) {a : Action} (h : a.Loaded) :
    ∃ b, decode.Reads ctx a.toValue b ∧ a.Filled ctx b ∧
      b.timeout = a.timeout.map Duration.reread := by
  cases a with
  | request s =>
    obtain ⟨t, ht, hfilled, htimeout⟩ := RequestStep.reads ctx h
    exact ⟨request t, congrArg (Except.map request) ht, .request hfilled, htimeout⟩
  | exec s =>
    obtain ⟨t, ht, hfilled⟩ := ExecStep.reads ctx s
    exact ⟨exec t, congrArg (Except.map exec) ht, .exec hfilled, rfl⟩
  | file s =>
    obtain ⟨t, ht, hfilled⟩ := FileStep.reads ctx h
    exact ⟨file t, congrArg (Except.map file) ht, .file hfilled, rfl⟩
  | process s =>
    obtain ⟨t, ht, hfilled⟩ := ProcessStep.reads ctx h
    exact ⟨process t, congrArg (Except.map process) ht, .process hfilled, rfl⟩
  | port s =>
    obtain ⟨t, ht, hfilled, htimeout⟩ := PortStep.reads ctx h
    exact ⟨port t, congrArg (Except.map port) ht, .port hfilled, htimeout⟩

theorem Decoder.Reads.resolveAs {α : Type} {dec : Decoder α} {toValue : α → Value} {a b : α}
    (h : dec.Reads ctx (toValue a) b) : ctx.resolveAs toValue dec a = .ok b := by
  unfold Context.resolveAs
  rw [h]

theorem Action.resolve_loaded (ctx : Context) {a : Action} (h : a.Loaded) :
    ∃ b, a.resolve ctx = .ok b ∧ a.Filled ctx b := by
  obtain ⟨b, hb, hfilled, -⟩ := reads ctx h
  exact ⟨b, hb.resolveAs, hfilled⟩

theorem Action.resolve_timeout (ctx : Context) {a : Action} (h : a.Loaded) :
    ∃ b, a.resolve ctx = .ok b ∧ b.timeout = a.timeout.map Duration.reread := by
  obtain ⟨b, hb, -, htimeout⟩ := reads ctx h
  exact ⟨b, hb.resolveAs, htimeout⟩

theorem Expectation.resolve_loaded (ctx : Context) {e : Expectation} (h : e.Loaded) :
    ∃ f, resolve ctx (some e) = .ok (some f) ∧ e.Filled ctx f := by
  obtain ⟨f, hf, hfilled⟩ := reads ctx h
  exact ⟨f, congrArg (Except.map some) hf.resolveAs, hfilled⟩

theorem Action.Filled.kind {a b : Action} (h : a.Filled ctx b) : b.kind = a.kind := by
  cases h <;> rfl

namespace Suite

variable {text : String} {suite : Suite}

theorem named_eq_ok {s : Suite} (h : named s = .ok suite) : s = suite := by
  unfold named at h
  split at h
  · exact Except.ok.inj h
  · cases h

theorem loaded_of_ofJson (h : ofJson text = .ok suite) : suite.Loaded := by
  unfold ofJson at h
  split at h
  · cases h
  next v hv =>
    split at h
    · cases h
    next s hs =>
      cases named_eq_ok h
      exact decode_yields _ _ suite (Json.parse_sound hv) hs

theorem loaded_of_ofYaml [Libraries] [Libraries.Lawful]
    (h : ofYaml text = .ok suite) : suite.Loaded := by
  unfold ofYaml at h
  split at h
  · cases h
  next d hd =>
    split at h
    · cases h
    next s hs =>
      cases named_eq_ok h
      exact decode_yields _ _ suite (Libraries.Lawful.sound_of_readYaml hd) hs

def HasStep (suite : Suite) (step : Step) : Prop :=
  step ∈ suite.cases ∨ step ∈ suite.teardown ∨ .step step ∈ suite.setup

theorem Loaded.step (h : suite.Loaded) {step : Step} (hstep : suite.HasStep step) :
    step.Loaded := by
  rcases hstep with hcase | hteardown | hsetup
  · exact h.cases step hcase
  · exact h.teardown step hteardown
  · exact h.setup (.step step) hsetup

/-- Filling the texts of a step by way of its JSON form never fails, and comes to the same as
filling them field by field. -/
theorem steps_resolve [Libraries] [Libraries.Lawful]
    (hload : ofJson text = .ok suite ∨ ofYaml text = .ok suite) {step : Step}
    (hstep : suite.HasStep step) (ctx : Context) :
    (∀ action, step.action = some action →
      ∃ filled, action.resolve ctx = .ok filled ∧ filled.kind = action.kind ∧
        action.Filled ctx filled) ∧
    ∀ expect, step.expect = some expect →
      ∃ filled, Expectation.resolve ctx (some expect) = .ok (some filled) ∧
        expect.Filled ctx filled := by
  have hloaded : suite.Loaded := hload.elim loaded_of_ofJson loaded_of_ofYaml
  have hparts := hloaded.step hstep
  constructor
  · intro action haction
    obtain ⟨filled, hresolve, hfilled⟩ := Action.resolve_loaded ctx
      (hparts.action action haction)
    exact ⟨filled, hresolve, hfilled.kind, hfilled⟩
  · intro expect hexpect
    exact Expectation.resolve_loaded ctx (hparts.expect expect hexpect)

/-- A file step with a number for a text, a fraction and a placeholder. -/
theorem steps_resolve_file :
    let text := "name: s\ncases:\n  - file:\n      path: '\x7b\x7benv.DIR\x7d\x7d/hosts'\n" ++
      "      permissions: 644\n      size: '>1.5'\n"
    let ctx : Context := ⟨[], [], [("DIR", "/etc")]⟩
    ∃ suite step action, ofYaml text = .ok suite ∧ suite.HasStep step ∧
      step.action = some action ∧
      ∃ filled, action.resolve ctx = .ok filled ∧ filled.kind = "file" ∧
        action.Filled ctx filled := by
  intro text ctx
  have hkinds : (ofYaml text).toOption.map
      (fun s => s.cases.map fun c => c.action.map Action.kind) = some [some "file"] := by
    decide +kernel
  obtain ⟨suite, hsuite, hcases⟩ := Option.map_eq_some_iff.mp hkinds
  obtain ⟨step, hstep, haction⟩ := List.map_eq_singleton_iff.mp hcases
  obtain ⟨action, haction, hkind⟩ := Option.map_eq_some_iff.mp haction
  have hload : ofYaml text = .ok suite := by
    cases h : ofYaml text with
    | ok s =>
      rw [h] at hsuite
      exact congrArg Except.ok (Option.some.inj hsuite)
    | error e =>
      rw [h] at hsuite
      cases hsuite
  have hmem : suite.HasStep step := .inl (hstep ▸ List.mem_singleton_self step)
  obtain ⟨filled, hresolve, hsame, hfilled⟩ :=
    (steps_resolve (.inr hload) hmem ctx).1 action haction
  exact ⟨suite, step, action, hload, hmem, haction, filled, hresolve, hsame.trans hkind, hfilled⟩

end Suite

end Assay

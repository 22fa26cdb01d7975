import Assay.Libraries.BuiltIn
import Assay.Proofs.Context.Layers
import Assay.Proofs.Script.Trials
import Assay.Runner.Basic

namespace Assay

open Script (Exchange bind_assoc runs_done)

/-- A trial that works on a context in place. An error ends it, but takes back nothing of what has
been written by then. -/
abbrev Deed (α : Type) := ExceptT Error (StateT Context (Script Query.Answer)) α

namespace Deed

variable {α β : Type}

def runOn (x : Deed α) (ctx : Context) : Run (Except Error α × Context) := (ExceptT.run x).run ctx

def ofTrial (x : Trial α) : Deed α :=
  ExceptT.mk fun ctx => do
    let r ← x.run
    pure (r, ctx)

/-- Write the values found in a body into the context, one after another. -/
def save (body : Value) : Entries String → Deed Unit
  | [] => pure ()
  | (name, path) :: bindings => do
    match savedValue body path with
    | some v => modify fun ctx => ctx.store name v
    | none => pure ()
    save body bindings

theorem runOn_bind (x : Deed α) (f : α → Deed β) (ctx : Context) :
    (x >>= f).runOn ctx = x.runOn ctx >>= fun p =>
      match p with
      | (.ok a, left) => (f a).runOn left
      | (.error e, left) => pure (.error e, left) := by
  change ((ExceptT.run x).run ctx >>= _) = ((ExceptT.run x).run ctx >>= _)
  congr 1
  funext p
  obtain ⟨r, left⟩ := p
  cases r <;> rfl

theorem runOn_get (f : Context → Deed β) (ctx : Context) :
    (get >>= f).runOn ctx = (f ctx).runOn ctx := rfl

theorem runOn_save (body : Value) (bindings : Entries String) (ctx : Context) :
    (save body bindings).runOn ctx = pure (.ok (), ctx.save body bindings) := by
  induction bindings generalizing ctx with
  | nil => rfl
  | cons b bindings ih =>
    obtain ⟨name, path⟩ := b
    simp only [save, Context.save_cons]
    cases savedValue body path with
    | none => exact ih ctx
    | some v => exact ih (ctx.store name v)

end Deed

/-- The failures of a request. What is found in its response is written into the context. -/
def RequestStep.runInPlace [Libraries] (s : RequestStep) (expect : Option Expectation)
    (save : Entries String) (settings : StepSettings) : Deed (List String) := do
  let r ← Deed.ofTrial (s.send settings)
  let failed ← Deed.ofTrial (liftM (Expectation.optionalFailures (fun e => e.failures r) expect))
  Deed.save r.body save
  pure failed

/-- Do what a step says on a context that is there once, and is written to as the step goes on. -/
def Step.executeInPlace [Libraries] (s : Step) (settings : StepSettings) : Deed (List String) := do
  match s.action with
  | none => throw (.noAction s.displayName)
  | some action =>
    let ctx ← get
    let action ← Deed.ofTrial (liftM (action.resolve ctx))
    let expect ← Deed.ofTrial (liftM (Expectation.resolve ctx s.expect))
    match action with
    | .request r => r.runInPlace expect s.save settings
    | .exec e => .ofTrial (e.run expect settings)
    | .file f => .ofTrial (f.run settings)
    | .process p => .ofTrial (p.run settings)
    | .port p => .ofTrial p.run

namespace Step

variable {ctx : Context} {settings : StepSettings}

/-- What is seen of a step when it is done: its failures, and the context after it. -/
def settled (ctx : Context) (x : Trial (List String × Context)) :
    Run (Except Error (List String) × Context) := do
  let result ← x.run
  pure (result.map Prod.fst, contextAfter ctx result)

theorem settled_bind {α : Type} {x : Trial α} {f : α → Trial (List String × Context)}
    {g : α → Deed (List String)} (h : ∀ a, settled ctx (f a) = (g a).runOn ctx) :
    settled ctx (x >>= f) = (Deed.ofTrial x >>= g).runOn ctx := by
  have hx : (Deed.ofTrial x).runOn ctx = x.run >>= fun r => pure (r, ctx) := rfl
  rw [Deed.runOn_bind, hx, settled, ExceptT.run_bind, bind_assoc, bind_assoc]
  congr 1
  funext r
  cases r with
  | error e => rfl
  | ok a => exact h a

theorem settled_unchanged (failures : Trial (List String)) :
    settled ctx (unchanged ctx failures) = (Deed.ofTrial failures).runOn ctx := by
  have h : settled ctx (unchanged ctx failures) =
      (Deed.ofTrial failures >>= fun failed => pure failed).runOn ctx :=
    settled_bind fun failed => rfl
  rw [h, Deed.runOn_bind]
  change (failures.run >>= _) >>= _ = failures.run >>= _
  rw [bind_assoc]
  congr 1
  funext r
  cases r <;> rfl

theorem settled_request [Libraries] (r : RequestStep) (expect : Option Expectation)
    (save : Entries String) :
    settled ctx (r.run expect save settings ctx) =
      (r.runInPlace expect save settings).runOn ctx := by
  refine settled_bind fun response => settled_bind fun failed => ?_
  rw [Deed.runOn_bind, Deed.runOn_save]
  rfl

/-- To write into the context while the step goes on, and to make a new context when it has
succeeded, comes to the same. -/
theorem executeInPlace_eq [Libraries] (s : Step) (settings : StepSettings) (ctx : Context) :
    (s.executeInPlace settings).runOn ctx = settled ctx (s.execute settings ctx) := by
  unfold executeInPlace execute
  cases s.action with
  | none => rfl
  | some action =>
    dsimp only
    rw [Deed.runOn_get]
    symm
    -- Up to here nothing is written; from here on only a request writes.
    refine settled_bind fun action => settled_bind fun expect => ?_
    cases action with
    | request r => exact settled_request r expect s.save
    | exec e => exact settled_unchanged _
    | file f => exact settled_unchanged _
    | process p => exact settled_unchanged _
    | port p => exact settled_unchanged _

end Step

/-- To fill the texts of an action does not make it one of another kind. -/
theorem Action.kind_of_resolve {ctx : Context} {action filled : Action}
    (h : action.resolve ctx = .ok filled) : filled.kind = action.kind := by
  have hdecode : ∃ d, decodeKind action.kind .jsonValue d = .ok filled := by
    simp only [Action.resolve, Context.resolveAs] at h
    split at h
    next b hb =>
      cases h
      exact ⟨_, hb⟩
    next => cases h
  obtain ⟨d, hd⟩ := hdecode
  cases action with
  | request r | exec r | file r | process r | port r =>
    obtain ⟨step, -, rfl⟩ := map_eq_ok.mp hd
    rfl

namespace Step

variable {s : Step} {settings : StepSettings} {ctx : Context} {es : List (Exchange Query.Answer)}

theorem runs_unchanged {failures : Trial (List String)} {r : Except Error (List String × Context)}
    (h : (unchanged ctx failures).run.Runs es r) :
    (∃ e, r = .error e) ∨ ∃ failed, r = .ok (failed, ctx) := by
  rcases Trial.runs_bind h with ⟨e, rfl, -⟩ | ⟨fs, gs, failed, -, hdone, -⟩
  · exact .inl ⟨e, rfl⟩
  · exact .inr ⟨failed, (runs_done hdone).2⟩

theorem runs_request [Libraries] {q : RequestStep} {expect : Option Expectation}
    {save : Entries String} {r : Except Error (List String × Context)}
    (h : (q.run expect save settings ctx).run.Runs es r) :
    (∃ e, r = .error e) ∨
      ∃ response failed, (q.send settings).run.Runs es (.ok response) ∧
        r = .ok (failed, ctx.save response.body save) := by
  rcases Trial.runs_bind h with ⟨e, rfl, -⟩ | ⟨sent, rest, response, hsend, hrest, rfl⟩
  · exact .inl ⟨e, rfl⟩
  rcases Trial.runs_bind hrest with ⟨e, rfl, -⟩ | ⟨judged, done, failed, hfailed, hdone, rfl⟩
  · exact .inl ⟨e, rfl⟩
  obtain ⟨rfl, -⟩ := Trial.runs_except hfailed
  obtain ⟨rfl, hresult⟩ := runs_done hdone
  refine .inr ⟨response, failed, ?_, hresult⟩
  simpa using hsend

theorem execute_cases [Libraries] {result : Except Error (List String × Context)}
    (h : (s.execute settings ctx).run.Runs es result) :
    (∃ e, result = .error e) ∨
    (∃ failed, (∀ q, s.action ≠ some (.request q)) ∧ result = .ok (failed, ctx)) ∨
    ∃ q filled response failed, s.action = some (.request q) ∧
      Action.resolve ctx (.request q) = .ok (.request filled) ∧
      (filled.send settings).run.Runs es (.ok response) ∧
      result = .ok (failed, ctx.save response.body s.save) := by
  unfold execute at h
  cases haction : s.action with
  | none =>
    simp only [haction] at h
    exact .inl ⟨_, (runs_done h).2⟩
  | some action =>
    simp only [haction] at h
    rcases Trial.runs_bind h with ⟨e, rfl, -⟩ | ⟨read, rest, filled, hfill, hrest, rfl⟩
    · exact .inl ⟨e, rfl⟩
    rcases Trial.runs_bind hrest with ⟨e, rfl, -⟩ | ⟨wanted, own, expect, hexpect, hown, rfl⟩
    · exact .inl ⟨e, rfl⟩
    obtain ⟨rfl, hfilled⟩ := Trial.runs_except hfill
    obtain ⟨rfl, -⟩ := Trial.runs_except hexpect
    have hkind := Action.kind_of_resolve hfilled.symm
    -- The filled action is of the kind of the step's own, so each kind has just one way to go on.
    cases filled with
    | request filled =>
      cases action with
      | request q =>
        rcases runs_request hown with herror | ⟨response, failed, hsend, hresult⟩
        · exact .inl herror
        · exact .inr (.inr ⟨q, filled, response, failed, rfl, hfilled.symm, hsend, hresult⟩)
      | exec | file | process | port => simp [Action.kind] at hkind
    | exec filled | file filled | process filled | port filled =>
      have hprobe : ∀ q, some action ≠ some (Action.request q) := by
        intro q hq
        cases hq
        simp [Action.kind] at hkind
      rcases runs_unchanged hown with herror | ⟨failed, hresult⟩
      · exact .inl herror
      · exact .inr (.inl ⟨failed, hprobe, hresult⟩)

/-- What a step may do to the context, by its result and the exchanges it had. -/
structure Transaction [Libraries] (s : Step) (settings : StepSettings) (ctx : Context)
    (es : List (Exchange Query.Answer)) (result : Except Error (List String)) (left : Context) :
    Prop where
  error : ∀ e, result = .error e → left = ctx
  config : left.config = ctx.config
  env : left.env = ctx.env
  probe : (∀ q, s.action ≠ some (.request q)) → left = ctx
  request : ∀ q failed, s.action = some (.request q) → result = .ok failed →
    ∃ filled response, Action.resolve ctx (.request q) = .ok (.request filled) ∧
      (filled.send settings).run.Runs es (.ok response) ∧
      (∀ name, Entries.get? left.runtime name =
        (Context.savedText s.save response.body name).or (Entries.get? ctx.runtime name)) ∧
      ∀ order : Entries String, order.Perm s.save → ∀ name,
        Entries.get? (ctx.save response.body order).runtime name = Entries.get? left.runtime name

theorem transaction_error [Libraries] (e : Error) : Transaction s settings ctx es (.error e) ctx :=
  ⟨fun _ _ => rfl, rfl, rfl, fun _ => rfl, nofun⟩

theorem transaction_probe [Libraries] (h : ∀ q, s.action ≠ some (.request q))
    (failed : List String) :
    Transaction s settings ctx es (.ok failed) ctx :=
  ⟨nofun, rfl, rfl, fun _ => rfl, fun q _ hq _ => absurd hq (h q)⟩

theorem transaction_request [Libraries] {q filled : RequestStep} {response : Response}
    (names : s.save.keys.Nodup) (haction : s.action = some (.request q))
    (hfilled : Action.resolve ctx (.request q) = .ok (.request filled))
    (hsend : (filled.send settings).run.Runs es (.ok response)) (failed : List String) :
    Transaction s settings ctx es (.ok failed) (ctx.save response.body s.save) := by
  have hgrows := ctx.save_grows response.body s.save
  refine ⟨nofun, hgrows.config, hgrows.env, fun h => absurd haction (h q), ?_⟩
  intro q' failed' haction' _
  have hq : q' = q := by
    rw [haction] at haction'
    cases haction'
    rfl
  subst hq
  refine ⟨filled, response, hfilled, hsend, Context.get?_save names, fun order hperm name => ?_⟩
  have horder : order.keys.Nodup := ((hperm.map Prod.fst).nodup_iff).mpr names
  have htext : Context.savedText order response.body name =
      Context.savedText s.save response.body name := by
    simp only [Context.savedText]
    rw [Entries.get?_of_perm names hperm]
  rw [Context.get?_save horder, Context.get?_save names, htext]

/-- The step is a transaction on the context it works on in place, and what it leaves is what the
step that makes a new context would leave. -/
theorem execute_transaction [Libraries] (s : Step) (settings : StepSettings) (ctx : Context)
    (names : s.save.keys.Nodup) :
    (s.executeInPlace settings).runOn ctx = settled ctx (s.execute settings ctx) ∧
      ∀ es result left, ((s.executeInPlace settings).runOn ctx).Runs es (result, left) →
        Transaction s settings ctx es result left := by
  refine ⟨executeInPlace_eq s settings ctx, fun es result left h => ?_⟩
  rw [executeInPlace_eq] at h
  obtain ⟨own, none, outcome, hown, hnone, rfl⟩ := Script.runs_bind h
  obtain ⟨rfl, hpair⟩ := runs_done hnone
  obtain ⟨rfl, rfl⟩ := Prod.mk.inj hpair
  rw [List.append_nil]
  rcases execute_cases hown with ⟨e, rfl⟩ | ⟨failed, hprobe, rfl⟩ |
    ⟨q, filled, response, failed, haction, hfilled, hsend, rfl⟩
  · exact transaction_error e
  · exact transaction_probe hprobe failed
  · exact transaction_request names haction hfilled hsend failed

/-- The names that a step saves are the keys of a map, so none of them stands twice. -/
theorem nodup_save {source : Origin} {d : Document} (h : decode source d = .ok s) :
    s.save.keys.Nodup := by
  obtain ⟨w, -, rfl⟩ := map_eq_ok.mp h
  exact Entries.nodup_keys_sorted (Entries.nodup_keys_ofList w.save)

end Step

namespace Rehearsal

/-- Answers every request with the same page. -/
def pageServer : Responder Query.Answer Unit
  | .send _ _, _, w => some (0, .response 200 [] [112, 111, 110, 103], w)
  | _, _, _ => none

/-- A request that saves the page it gets, and something that it does not get. -/
def pageStep : Step :=
  ⟨some "page", some (.request ⟨"GET", some "/ping", none, [], none, none⟩), none, none,
    [("none", "body.token"), ("page", "body")], false, none, false⟩

def pageSettings : StepSettings := ⟨"http://localhost", none, none⟩

theorem execute_transaction_page :
    pageStep.save.keys.Nodup ∧ ∃ es left,
      ((pageStep.executeInPlace pageSettings).runOn .empty).Runs es (.ok [], left) ∧
      Step.Transaction pageStep pageSettings .empty es (.ok []) left ∧
      (Entries.get? left.runtime "page").map Value.text = some "pong" := by
  have names : pageStep.save.keys.Nodup := by decide
  have hplay : (((pageStep.executeInPlace pageSettings).runOn .empty).play pageServer 0 ()).any
      (fun r => r.1.1.toOption == some [] &&
        (Entries.get? r.1.2.runtime "page").map Value.text == some "pong") = true := by
    decide +kernel
  obtain ⟨⟨⟨answer, left⟩, later, w⟩, hresult, hgood⟩ := (Option.any_eq_true _ _).mp hplay
  simp only [Bool.and_eq_true, beq_iff_eq] at hgood
  obtain ⟨hanswer, hpage⟩ := hgood
  cases answer with
  | error e => cases hanswer
  | ok failed =>
    cases hanswer
    have hruns := Script.runs_of_play hresult
    exact ⟨names, _, left, hruns,
      (Step.execute_transaction pageStep pageSettings .empty names).2 _ _ _ hruns, hpage⟩

end Rehearsal

end Assay

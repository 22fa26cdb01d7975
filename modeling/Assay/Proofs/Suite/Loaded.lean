import Assay.Proofs.Document.Yields
import Assay.Suite.Basic

namespace Assay

open Decoder (fields_yields value_yields)
open Record (option_yields optional_yields required_yields)

theorem Record.Yields.any {α : Type} (r : Record α) : r.Yields fun _ => True :=
  fun _ _ _ _ _ => True.intro

structure RequestStep.Loaded (s : RequestStep) : Prop where
  headers : (Value.object s.headers).Settled
  body : ∀ v ∈ s.body, v.Settled
  timeout : ∀ d ∈ s.timeout, d.millis ≤ Duration.limit

structure FileStep.Loaded (s : FileStep) : Prop where
  size : ∀ c ∈ s.size, c.bound.Representable
  json : ∀ v ∈ s.json, v.Settled

structure ProcessStep.Loaded (s : ProcessStep) : Prop where
  count : ∀ c ∈ s.count, c.bound.Representable

structure PortStep.Loaded (s : PortStep) : Prop where
  port : s.port ≤ 65535
  timeout : ∀ d ∈ s.timeout, d.millis ≤ Duration.limit

/-- What reading a document leaves true of an action: its values are settled and its numbers are
within their limits. -/
def Action.Loaded : Action → Prop
  | request s => s.Loaded
  | exec _ => True
  | file s => s.Loaded
  | process s => s.Loaded
  | port s => s.Loaded

structure OutputExpectation.Loaded (e : OutputExpectation) : Prop where
  json : ∀ v ∈ e.json, v.Settled
  length : ∀ c ∈ e.length, c.bound.Representable

structure Expectation.Loaded (e : Expectation) : Prop where
  status : ∀ v ∈ e.status, v.Settled
  headers : ∀ fs ∈ e.headers, (Value.object fs).Settled
  body : ∀ v ∈ e.body, v.Settled
  output : ∀ o ∈ e.output, o.Loaded
  exitCode : ∀ n ∈ e.exitCode, -(2 ^ 63 : Int) ≤ n ∧ n < 2 ^ 63
  all : ∀ vs ∈ e.all, ∀ v ∈ vs, v.Settled
  any : ∀ vs ∈ e.any, ∀ v ∈ vs, v.Settled

structure Step.Loaded (s : Step) : Prop where
  action : ∀ a ∈ s.action, a.Loaded
  expect : ∀ e ∈ s.expect, e.Loaded

def SetupEntry.Loaded : SetupEntry → Prop
  | step s => s.Loaded
  | _ => True

structure Suite.Loaded (s : Suite) : Prop where
  setup : ∀ e ∈ s.setup, e.Loaded
  cases : ∀ c ∈ s.cases, c.Loaded
  teardown : ∀ c ∈ s.teardown, c.Loaded

theorem RequestStep.decode_yields : decode.Yields Loaded := by
  have hheaders : (Value.object []).Settled := .object List.nodup_nil (List.forall_mem_nil _)
  refine Record.Yields.decode ?_ _ _
  refine .seq ?_ (option_yields Duration.decode_yields)
  refine .seq ?_ (option_yields value_yields)
  refine .seq ?_ (optional_yields fields_yields hheaders)
  refine .seq ?_ (.any _)
  refine .seq ?_ (.any _)
  refine .map (.any _) ?_
  intro method _ path _ url _ headers hheaders body hbody timeout htimeout
  exact ⟨hheaders, hbody, htimeout⟩

theorem FileStep.decode_yields : decode.Yields Loaded := by
  refine Record.Yields.decode ?_ _ _
  refine .seq ?_ (option_yields value_yields)
  refine .seq ?_ (.any _)
  refine .seq ?_ (.any _)
  refine .seq ?_ (.any _)
  refine .seq ?_ (option_yields Comparison.decode_yields)
  refine .seq ?_ (.any _)
  refine .seq ?_ (.any _)
  refine .seq ?_ (.any _)
  refine .seq ?_ (.any _)
  refine .map (.any _) ?_
  intro path _ container _ present _ permissions _ owner _ size hsize contains _ lacks _ pattern _
    json hjson
  exact ⟨hsize, hjson⟩

theorem ProcessStep.decode_yields : decode.Yields Loaded := by
  refine Record.Yields.decode ?_ _ _
  refine .seq ?_ (.any _)
  refine .seq ?_ (option_yields Comparison.decode_yields)
  refine .seq ?_ (.any _)
  refine .seq ?_ (.any _)
  refine .map (.any _) ?_
  intro name _ container _ running _ count hcount user _
  exact ⟨hcount⟩

theorem PortStep.decode_yields : decode.Yields Loaded := by
  refine Record.Yields.decode ?_ _ _
  refine .seq ?_ (option_yields Duration.decode_yields)
  refine .seq ?_ (.any _)
  refine .seq ?_ (.any _)
  refine .seq ?_ (.any _)
  refine .map (required_yields (Decoder.unsigned_yields 65535 "u16")) ?_
  intro port hport host _ container _ listening _ timeout htimeout
  exact ⟨hport, htimeout⟩

theorem OutputExpectation.decode_yields : decode.Yields Loaded := by
  refine Record.Yields.decode ?_ _ _
  refine .seq ?_ (option_yields Comparison.decode_yields)
  refine .seq ?_ (option_yields value_yields)
  refine .seq ?_ (.any _)
  refine .seq ?_ (.any _)
  refine .map (.any _) ?_
  intro contains _ lacks _ pattern _ json hjson length hlength
  exact ⟨hjson, hlength⟩

theorem Decoder.int64_yields : int64.Yields fun n => -(2 ^ 63 : Int) ≤ n ∧ n < 2 ^ 63 := by
  intro o d n hd h
  have hwithin := integer_yields _ _ _ _ o d n hd h
  rw [Nat.pow_eq] at hwithin
  omega

theorem Expectation.decode_yields : decode.Yields Loaded := by
  refine Record.Yields.decode ?_ _ _
  refine .seq ?_ (option_yields value_yields.list)
  refine .seq ?_ (option_yields value_yields.list)
  refine .seq ?_ (.any _)
  refine .seq ?_ (option_yields Decoder.int64_yields)
  refine .seq ?_ (option_yields OutputExpectation.decode_yields)
  refine .seq ?_ (option_yields value_yields)
  refine .seq ?_ (option_yields fields_yields)
  refine .map (option_yields value_yields) ?_
  intro status hstatus headers hheaders body hbody output houtput exitCode hexitCode
    expressions _ all hall any hany
  exact ⟨hstatus, hheaders, hbody, houtput, hexitCode, hall, hany⟩

namespace Step

theorem Written.action_loaded {w : Written} (hrequest : ∀ s ∈ w.request, s.Loaded)
    (hfile : ∀ s ∈ w.file, s.Loaded) (hprocess : ∀ s ∈ w.process, s.Loaded)
    (hport : ∀ s ∈ w.port, s.Loaded) : ∀ a ∈ w.action, a.Loaded := by
  intro a ha
  simp only [Written.action, Option.mem_def, Option.or_eq_some_iff, Option.map_eq_some_iff] at ha
  rcases ha with ⟨s, hs, rfl⟩ | ⟨-, ⟨s, hs, rfl⟩ | ⟨-, ⟨s, hs, rfl⟩ | ⟨-, ⟨s, hs, rfl⟩ |
    ⟨-, s, hs, rfl⟩⟩⟩⟩
  · exact hfile s hs
  · exact hprocess s hs
  · exact hport s hs
  · exact True.intro
  · exact hrequest s hs

theorem decode_yields : decode.Yields Loaded := by
  have hwritten : (record.decode "RawStep" false).Yields fun w =>
      (∀ a ∈ w.action, a.Loaded) ∧ ∀ e ∈ w.expect, e.Loaded := by
    refine Record.Yields.decode ?_ _ _
    refine .seq ?_ (.any _)
    refine .seq ?_ (.any _)
    refine .seq ?_ (.any _)
    refine .seq ?_ (.any _)
    refine .seq ?_ (option_yields Expectation.decode_yields)
    refine .seq ?_ (.any _)
    refine .seq ?_ (option_yields PortStep.decode_yields)
    refine .seq ?_ (option_yields ProcessStep.decode_yields)
    refine .seq ?_ (option_yields FileStep.decode_yields)
    refine .seq ?_ (.any _)
    refine .seq ?_ (option_yields RequestStep.decode_yields)
    refine .map (.any _) ?_
    intro name _ request hrequest exec _ file hfile process hprocess port hport delay _ expect
      hexpect save _ ignoreError _ retry _ skip _
    exact ⟨Written.action_loaded hrequest hfile hprocess hport, hexpect⟩
  exact hwritten.map fun w hw => ⟨hw.1, hw.2⟩

end Step

namespace SetupEntry

theorem eq_ok_of_inKey {α : Type} {key : String} {x : Except Mismatch α} {a : α}
    (h : inKey key x = .ok a) : x = .ok a := by
  cases x with
  | ok b => exact h
  | error m => cases h

theorem ofStep_loaded {s : Step} (h : s.Loaded) : (ofStep s).Loaded := by
  unfold ofStep
  split
  · exact True.intro
  · exact h

theorem decode_yields : decode.Yields Loaded := by
  intro o d entry hd h
  obtain ⟨fields, hfields, h⟩ := bind_eq_ok.mp h
  have hsettled := fields_yields o d fields hd hfields
  split at h
  next e he =>
    cases h
    unfold ofFields at he
    split at he
    · cases he
      exact True.intro
    · obtain ⟨w, -, rfl⟩ := map_eq_ok.mp (eq_ok_of_inKey he)
      exact True.intro
    · obtain ⟨w, -, rfl⟩ := map_eq_ok.mp (eq_ok_of_inKey he)
      exact True.intro
    · obtain ⟨s, hs, rfl⟩ := map_eq_ok.mp he
      exact ofStep_loaded (Step.decode_yields _ _ s (Document.ofValue_sound hsettled) hs)
  next => cases h

end SetupEntry

theorem Suite.decode_yields : decode.Yields Loaded := by
  refine Record.Yields.decode ?_ _ _
  refine .seq ?_ (optional_yields Step.decode_yields.list (List.forall_mem_nil _))
  refine .seq ?_ (required_yields Step.decode_yields.list)
  refine .seq ?_ (optional_yields SetupEntry.decode_yields.list (List.forall_mem_nil _))
  refine .seq ?_ (.any _)
  refine .seq ?_ (.any _)
  refine .seq ?_ (.any _)
  refine .seq ?_ (.any _)
  refine .seq ?_ (.any _)
  refine .seq ?_ (.any _)
  refine .map (.any _) ?_
  intro name _ description _ parallel _ vars _ retry _ timeout _ container _ setup hsetup cases
    hcases teardown hteardown
  exact ⟨hsetup, hcases, hteardown⟩

end Assay

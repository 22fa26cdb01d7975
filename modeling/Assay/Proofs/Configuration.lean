import Assay.Configuration
import Assay.Proofs.Document.Reads
import Assay.Proofs.Suite.Loaded

namespace Assay

variable {o : Origin}

namespace Record

variable {α : Type} {get : String → Option Document} {name : String} {absent : α}
  {dec : Decoder α}

theorem optional_accepts_absent (hget : get name = none) :
    (optional name absent dec).Accepts o get absent := by
  constructor
  · simp only [optional, hget]
  · intro key d hd
    have hkey : key ≠ name := by
      rintro rfl
      rw [hget] at hd
      cases hd
    simp only [optional, if_neg hkey]

/-- A part that is written when it is there, and otherwise left out. -/
theorem option_accepts {β : Type} (f : β → Value) {g : β → α} {x : Option β}
    (hget : get name = x.map fun b => .ofValue (f b)) (hf : ∀ b, f b ≠ .null)
    (h : ∀ b ∈ x, dec o (.ofValue (f b)) = .ok (g b)) :
    (option name dec).Accepts o get (x.map g) := by
  cases x with
  | none => exact optional_accepts_absent hget
  | some b => exact optional_accepts hget (Decoder.nullable_ofValue (hf b) (h b rfl))

theorem option_accepts_same (f : α → Value) {x : Option α}
    (hget : get name = x.map fun a => .ofValue (f a)) (hf : ∀ a, f a ≠ .null)
    (h : ∀ a ∈ x, dec o (.ofValue (f a)) = .ok a) : (option name dec).Accepts o get x := by
  have haccepts := option_accepts f (g := id) hget hf h
  rwa [Option.map_id] at haccepts

end Record

namespace Decoder

theorem eachOf_texts (ss : List String) :
    eachOf text o (Document.ofValues (ss.map .string)) = .ok ss := by
  induction ss with
  | nil => rfl
  | cons s ss ih =>
    rw [List.map_cons, Document.ofValues, eachOf, ih]
    rfl

theorem list_strings (ss : List String) : list text o (.ofValue (.strings ss)) = .ok ss :=
  eachOf_texts ss

theorem unsigned_ofValue {high n : Nat} {name : String} (h : n ≤ high) :
    unsigned high name o (.ofValue (.nat n)) = .ok n := by
  have hwithin : (0 : Int) ≤ n ∧ (n : Int) ≤ high := by omega
  have hread : integer 0 high (0, Nat.pow 2 64 - 1) name o (.ofValue (.nat n)) = .ok (n : Int) :=
    if_pos hwithin
  exact congrArg (Except.map Int.toNat) hread

end Decoder

open Decoder (fields_yields unsigned_yields)
open Record (decode_object option_yields optional_yields optional_accepts option_accepts
  option_accepts_same)

namespace RetryPolicy

variable {p : RetryPolicy}

/-- What reading a document leaves true of a policy. -/
structure Loaded (p : RetryPolicy) : Prop where
  maxAttempts : p.maxAttempts < 2 ^ 32
  delay : p.delay.millis ≤ Duration.limit

theorem decode_yields : decode.Yields Loaded := by
  refine Record.Yields.decode ?_ _ _
  refine .seq ?_ (.any _)
  refine .seq ?_ (.any _)
  refine .seq ?_ (optional_yields Duration.decode_yields (Nat.zero_le _))
  refine .map (optional_yields (unsigned_yields _ _) (by decide)) ?_
  intro attempts hattempts delay hdelay backoff _ multiplier _
  rw [Nat.pow_eq] at hattempts
  have hlt : attempts < 2 ^ 32 := by omega
  exact ⟨hlt, hdelay⟩

/-- A policy as it comes back from JSON, which has no factor that is infinite or not a number. -/
def reread (p : RetryPolicy) : RetryPolicy :=
  { p with delay := p.delay.reread, multiplier := p.multiplier.filter Double.isFinite }

theorem Loaded.attempts_le (h : p.Loaded) : p.maxAttempts ≤ Nat.pow 2 32 - 1 := by
  have := h.maxAttempts
  rw [Nat.pow_eq]
  omega

theorem decode_toValue (h : p.Loaded) : decode o (.ofValue p.toValue) = .ok p.reread := by
  have hkeys : record.names.Nodup := by decide
  refine decode_object ?_ _ ?_
  · exact hkeys
  refine .seq (.seq (.seq (.map ?_) ?_) ?_) ?_
  · exact optional_accepts rfl (Decoder.unsigned_ofValue h.attempts_le)
  · exact optional_accepts rfl (Duration.decode_toValue o h.delay)
  · refine optional_accepts rfl ?_
    cases p.backoff with
    | none => rfl
    | some b => cases b <;> rfl
  · refine optional_accepts rfl ?_
    cases p.multiplier with
    | none => rfl
    | some x =>
      rw [Value.ofOption, multiplierValue, Option.filter_some]
      by_cases hx : x.isFinite
      · rw [if_pos hx, if_pos hx]
        rfl
      · rw [if_neg hx, if_neg hx]
        rfl

/-- Written without what is absent in it, a policy keeps its factor whatever it is. -/
theorem decode_presentRetry (h : p.Loaded) :
    decode o (.ofValue (Configuration.presentRetry p)) =
      .ok { p with delay := p.delay.reread } := by
  obtain ⟨attempts, delay, backoff, multiplier⟩ := p
  refine decode_object ?_ _ ?_
  · cases backoff <;> cases multiplier <;> simp [Entries.keys]
  refine .seq (.seq (.seq (.map ?_) ?_) ?_) ?_
  · exact optional_accepts rfl (Decoder.unsigned_ofValue h.attempts_le)
  · exact optional_accepts rfl (Duration.decode_toValue o h.delay)
  · have hnull (b : Backoff) : Value.string (backoffName b) ≠ .null := Value.noConfusion
    refine option_accepts_same (fun b => Value.string (backoffName b)) ?_ hnull ?_
    · cases backoff <;> cases multiplier <;> rfl
    · intro b _
      cases b <;> rfl
  · have hnull (x : Double) : Value.number (.float x) ≠ .null := Value.noConfusion
    refine option_accepts_same (fun x => Value.number (.float x)) ?_ hnull fun _ _ => rfl
    cases backoff <;> cases multiplier <;> rfl

end RetryPolicy

namespace Defaults

/-- What reading a document leaves true of the defaults. -/
structure Loaded (d : Defaults) : Prop where
  timeout : ∀ t ∈ d.timeout, t.millis ≤ Duration.limit

theorem decode_yields : (record.decode "Defaults" false).Yields Loaded := by
  refine Record.Yields.decode ?_ _ _
  refine .seq ?_ (option_yields Duration.decode_yields)
  refine .seq ?_ (.any _)
  exact .map (.any _) fun _ _ _ _ _ htimeout => ⟨htimeout⟩

def reread (d : Defaults) : Defaults := { d with timeout := d.timeout.map .reread }

theorem decode_toFields {d : Defaults} (h : d.Loaded) :
    record.decode "Defaults" false o (.ofValue (.object d.toFields)) = .ok d.reread := by
  obtain ⟨url, container, timeout⟩ := d
  have hkeys : (toFields ⟨url, container, timeout⟩).keys.Nodup := by
    cases container <;> cases timeout <;> simp [toFields, Entries.keys]
  refine decode_object hkeys _ ?_
  refine .seq (.seq (.map (optional_accepts rfl rfl)) ?_) ?_
  · refine option_accepts_same Value.string ?_ (fun _ => Value.noConfusion) fun _ _ => rfl
    cases container <;> cases timeout <;> rfl
  · refine option_accepts Duration.toValue ?_ (fun _ => Value.noConfusion) fun t ht =>
      Duration.decode_toValue o (h.timeout t ht)
    cases container <;> cases timeout <;> rfl

end Defaults

namespace DiagnosticsSettings

theorem decode_toFields (d : DiagnosticsSettings) :
    record.decode "DiagnosticsConfig" false o (.ofValue (.object d.toFields)) = .ok d := by
  obtain ⟨enabled, containers, mockEndpoints, network⟩ := d
  have hkeys : (toFields ⟨enabled, containers, mockEndpoints, network⟩).keys.Nodup := by
    cases network <;> simp [toFields, Entries.keys]
  refine decode_object hkeys _ ?_
  refine .seq (.seq (.seq (.map ?_) ?_) ?_) ?_
  · exact optional_accepts rfl rfl
  · exact optional_accepts rfl (Decoder.list_strings containers)
  · exact optional_accepts rfl (Decoder.list_strings mockEndpoints)
  · refine option_accepts_same Value.string ?_ (fun _ => Value.noConfusion) fun _ _ => rfl
    cases network <;> rfl

end DiagnosticsSettings

namespace Configuration

variable {c : Configuration}

/-- What reading a document leaves true of the settings. -/
structure Loaded (c : Configuration) : Prop where
  defaults : c.defaults.Loaded
  retry : ∀ p ∈ c.retry, p.Loaded
  limit : ∀ n ∈ c.limit, n < 2 ^ 64
  vars : (Value.object c.vars).Settled

theorem limit_yields :
    (limitRecord.decode "Concurrency" false).Yields fun x => ∀ n ∈ x, n < 2 ^ 64 := by
  refine Record.Yields.decode ?_ _ _
  intro o get x hget hx n hn
  have hle := option_yields (unsigned_yields _ _) o get x hget hx n hn
  rw [Nat.pow_eq] at hle
  omega

theorem decode_yields : decode.Yields Loaded := by
  have hvars : (Value.object []).Settled := .object List.nodup_nil (List.forall_mem_nil _)
  refine Record.Yields.decode ?_ _ _
  refine .seq ?_ (optional_yields fields_yields hvars)
  refine .seq ?_ (.any _)
  refine .seq ?_ (optional_yields limit_yields nofun)
  refine .seq ?_ (option_yields RetryPolicy.decode_yields)
  refine .map (optional_yields Defaults.decode_yields ⟨nofun⟩) ?_
  intro defaults hdefaults retry hretry limit hlimit diagnostics _ vars hvars
  exact ⟨hdefaults, hretry, hlimit, hvars⟩

theorem decode_limit {x : Option Nat} (h : ∀ n ∈ x, n < 2 ^ 64) :
    limitRecord.decode "Concurrency" false o
      (.ofValue (.object (x.map fun n => ("limit", Value.nat n)).toList)) = .ok x := by
  have hkeys : (Entries.keys (x.map fun n => ("limit", Value.nat n)).toList).Nodup := by
    cases x <;> simp [Entries.keys]
  refine decode_object hkeys _ ?_
  refine option_accepts_same Value.nat ?_ (fun _ => Value.noConfusion) fun n hn =>
    Decoder.unsigned_ofValue ?_
  · cases x <;> rfl
  · have := h n hn
    rw [Nat.pow_eq]
    omega

theorem sorted_settled {fs : Fields} (h : (Value.object fs).Settled) :
    (Value.object (Entries.sorted fs)).Settled := by
  cases h with
  | object hkeys h =>
    exact .object (Entries.nodup_keys_sorted hkeys) fun f hf => h f (List.mem_mergeSort.mp hf)

/-- Settings whose policy is written as `write` does come back with what is read of it. -/
theorem decode_toFields {write : RetryPolicy → Value} {read : RetryPolicy → RetryPolicy}
    (hwrite : ∀ p, write p ≠ .null)
    (hread : ∀ p ∈ c.retry, RetryPolicy.decode o (.ofValue (write p)) = .ok (read p))
    (h : c.Loaded) :
    decode o (.ofValue (.object (c.toFields write))) =
      .ok
        { c with
          defaults := c.defaults.reread
          retry := c.retry.map read
          vars := Entries.sorted c.vars } := by
  obtain ⟨defaults, retry, limit, diagnostics, vars⟩ := c
  have hkeys : (toFields ⟨defaults, retry, limit, diagnostics, vars⟩ write).keys.Nodup := by
    cases retry <;> simp [toFields, Entries.keys]
  refine decode_object hkeys _ ?_
  refine .seq (.seq (.seq (.seq (.map ?_) ?_) ?_) ?_) ?_
  · exact optional_accepts rfl (Defaults.decode_toFields h.defaults)
  · refine option_accepts write ?_ hwrite hread
    cases retry <;> rfl
  · refine optional_accepts ?_ (decode_limit h.limit)
    cases retry <;> rfl
  · refine optional_accepts ?_ (DiagnosticsSettings.decode_toFields diagnostics)
    cases retry <;> rfl
  · refine optional_accepts ?_ (Decoder.fields_ofValue o (sorted_settled h.vars))
    cases retry <;> rfl

end Configuration

end Assay

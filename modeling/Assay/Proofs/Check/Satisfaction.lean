import Assay.Libraries.BuiltIn
import Assay.Proofs.Check.Conditions
import Assay.Proofs.Value.Equality
import Mathlib.Data.List.Basic

namespace Assay

/-- The truth of one comparison of a length. What is no bound is never true. -/
def lengthTruth (n : Nat) (comparison : String × Value) : Bool :=
  match Bound.ofName? comparison.1 with
  | some b => b.holds (some (.nat n)) comparison.2
  | none => false

namespace Check

theorem checkLengthBound_outcome {n : Nat} {path : String} {entry : String × Value} :
    (checkLengthBound (.nat n) path entry).outcome =
      ⟨path, entry.1, entry.2, some (.nat n), lengthTruth n entry⟩ := by
  obtain ⟨name, limit⟩ := entry
  unfold checkLengthBound lengthTruth
  dsimp only
  split
  · rfl
  · rfl
  · rfl
  · rfl
  · next habove hatLeast hbelow hatMost =>
    have hnone : Bound.ofName? name = none := by
      rw [Bound.ofName?, List.find?_eq_none]
      rintro b - hb
      have hname := beq_iff_eq.mp hb
      cases b with
      | above => exact habove hname.symm
      | atLeast => exact hatLeast hname.symm
      | below => exact hbelow hname.symm
      | atMost => exact hatMost hname.symm
    rw [hnone]
    rfl

/-- Every comparison of the length, or the length itself, has a truth value. Without a length all
are false. -/
def LengthSat (b : Bool) (condition : Value) (actual : Option Value) : Prop :=
  match actual.bind Value.length? with
  | none => b = false
  | some n =>
    match condition with
    | .object comparisons => ∀ c ∈ comparisons, lengthTruth n c = b
    | e => (Value.nat n).equals e = b

mutual

/-- What an expectation says of a value, part by part: that all of it is true, or that all of it is
false. Under a negation the other one is said. -/
def Sat [Libraries] (b : Bool) (expected : Value) (actual : Option Value) : Prop :=
  match expected with
  | .object (f :: fs) =>
    if hasOperator (f :: fs) then SatFields b (f :: fs) true actual
    else
      match actual with
      | some (.object _) | some (.array _) => SatFields b (f :: fs) false actual
      | _ => b = false
  | e => (actual.any fun a => a.equals e) = b
termination_by structural expected

/-- The same of the named conditions. -/
def SatFields [Libraries] (b : Bool) (fields : List (String × Value)) (operators : Bool)
    (actual : Option Value) : Prop :=
  match fields with
  | [] => True
  | (key, condition) :: fs =>
    (match if operators then Operator.ofName? key else none with
      | none => Sat b condition (actual.bind fun a => a.child? key)
      | some .negation => Sat (!b) condition actual
      | some .every =>
        b = true ↔ ∃ items, actual = some (.array items) ∧
          ∀ v ∈ items, Sat true condition (some v)
      | some .any =>
        b = true ↔ ∃ items, actual = some (.array items) ∧
          ∃ v ∈ items, Sat true condition (some v)
      | some .length => LengthSat b condition actual
      | some op => op.truth actual condition = b) ∧
    SatFields b fs operators actual
termination_by structural fields

end

/-- All checks came out one way. -/
def AllAre (b : Bool) (cs : List Check) : Prop := ∀ c ∈ cs, c.passed = b

theorem allAre_append {b : Bool} {cs ds : List Check} :
    AllAre b (cs ++ ds) ↔ AllAre b cs ∧ AllAre b ds := List.forall_mem_append

theorem allAre_singleton {b : Bool} {c : Check} : AllAre b [c] ↔ c.passed = b :=
  List.forall_mem_singleton

theorem allPassed_iff {cs : List Check} : allPassed cs ↔ AllAre true cs := List.all_eq_true

theorem failures_eq_nil {cs : List Check} : failures cs = [] ↔ AllAre true cs := by
  simp [failures, AllAre, List.filter_eq_nil_iff]

theorem allAre_negate {b : Bool} {cs : List Check} :
    AllAre b (cs.map negate) ↔ AllAre (!b) cs := by
  simp only [AllAre, List.forall_mem_map, negate, Bool.not_eq_eq_eq_not]

theorem checkLength_sat {b : Bool} {actual : Option Value} {condition : Value} {path : String} :
    AllAre b (checkLength actual condition path) ↔ LengthSat b condition actual := by
  unfold checkLength LengthSat
  cases actual.bind Value.length? with
  | none =>
    rw [allAre_singleton]
    exact eq_comm
  | some n =>
    cases condition with
    | object comparisons =>
      simp only [AllAre, List.forall_mem_map]
      refine forall₂_congr fun c _ => ?_
      exact Eq.congr_left (congrArg Outcome.passed checkLengthBound_outcome)
    | _ => exact allAre_singleton

theorem verdict {x b : Bool} {P : Prop} (h : x = true ↔ P) : x = b ↔ (b = true ↔ P) := by
  rw [← h, Bool.eq_iff_iff]
  exact iff_comm

section Items

variable {check : Value → String → Except Error (List Check)} {P : Value → Prop} {path : String}

theorem failuresOfItems_eq_nil (hcheck : ∀ v p cs, check v p = .ok cs → (AllAre true cs ↔ P v))
    {i : Nat} {items : List Value} {failed : List String}
    (h : failuresOfItems check path i items = .ok failed) : failed = [] ↔ ∀ v ∈ items, P v := by
  induction items generalizing i failed with
  | nil =>
    cases h
    simp
  | cons v vs ih =>
    obtain ⟨cs, hcs, h⟩ := bind_eq_ok.mp h
    obtain ⟨rest, hrest, h⟩ := bind_eq_ok.mp h
    cases h
    rw [List.append_eq_nil_iff, failures_eq_nil, hcheck v _ cs hcs, ih hrest,
      List.forall_mem_cons]

theorem firstPassing_isSome (hcheck : ∀ v p cs, check v p = .ok cs → (AllAre true cs ↔ P v))
    {i : Nat} {items : List Value} {found : Option Nat}
    (h : firstPassing check path i items = .ok found) : found.isSome ↔ ∃ v ∈ items, P v := by
  induction items generalizing i found with
  | nil =>
    cases h
    simp
  | cons v vs ih =>
    obtain ⟨cs, hcs, h⟩ := bind_eq_ok.mp h
    have hv := hcheck v _ cs hcs
    rw [List.exists_mem_cons_iff, ← hv, ← allPassed_iff]
    split at h
    · next hpassed =>
      cases h
      simp [hpassed]
    · next hpassed =>
      rw [ih h]
      simp [hpassed]

end Items

section Conditions

variable [Libraries] {fs : Fields} {key path : String} {condition : Value} {actual : Option Value}
  {b : Bool} {cs : List Check}

theorem satFields_cons (f : String × Value) (fs : Fields) :
    SatFields b (f :: fs) true actual ↔
      SatFields b [f] true actual ∧ SatFields b fs true actual := by
  rw [SatFields.eq_def, SatFields.eq_def b [f]]
  exact and_congr_left fun _ => (and_iff_left (by trivial)).symm

theorem satFields_plain (h : hasOperator fs = false) :
    SatFields b fs false actual ↔ SatFields b fs true actual := by
  induction fs with
  | nil => exact Iff.rfl
  | cons f fs ih =>
    obtain ⟨key, condition⟩ := f
    obtain ⟨hkey, hrest⟩ := Bool.or_eq_false_iff.mp h
    have hname : Operator.ofName? key = none := by
      rw [← Option.not_isSome_iff_eq_none, Operator.isSome_ofName?, Bool.not_eq_true]
      exact hkey
    rw [SatFields.eq_def, SatFields.eq_def _ _ true]
    simp only [hname, ih hrest, Bool.false_eq_true, if_false, if_true]

theorem sat_object (h : fs ≠ []) :
    Sat b (.object fs) actual ↔
      if hasOperator fs || actual.any Value.isContainer then SatFields b fs true actual
      else b = false := by
  obtain ⟨f, rest, rfl⟩ := List.exists_cons_of_ne_nil h
  rw [Sat.eq_def]
  dsimp only
  cases hop : hasOperator (f :: rest) with
  | true => exact Iff.rfl
  | false =>
    cases actual with
    | none => exact Iff.rfl
    | some v =>
      cases v with
      | object | array => exact satFields_plain hop
      | _ => exact Iff.rfl

/-- The checks of one of the conditions, if those of what it expects are decided. -/
theorem condition_sat
    (ih : ∀ {b actual path cs}, evaluate condition actual path = .ok cs →
      (AllAre b cs ↔ Sat b condition actual))
    (h : evaluateFields [(key, condition)] true actual path = .ok cs) :
    AllAre b cs ↔ SatFields b [(key, condition)] true actual := by
  rw [SatFields.eq_def]
  dsimp only
  rw [if_pos rfl, SatFields.eq_def b [], and_true]
  cases hop : Operator.ofName? key with
  | none =>
    rw [evaluateFields_field hop] at h
    exact ih h
  | some op =>
    by_cases hwhole : op.isWhole
    · obtain ⟨c, hc, houtcome⟩ := evaluateFields_whole hop hwhole
      rw [hc] at h
      cases h
      rw [allAre_singleton, show c.passed = op.truth actual condition from
        congrArg Outcome.passed houtcome]
      cases op with
      | length | every | any | negation => cases hwhole
      | _ => exact Iff.rfl
    cases op with
    | length =>
      rw [evaluateFields_length hop] at h
      cases h
      exact checkLength_sat
    | pattern =>
      rw [evaluateFields_pattern hop] at h
      obtain ⟨r, hr, rfl⟩ := map_eq_ok.mp h
      simp only [allAre_singleton, plain, Operator.truth, compile_eq_ok.mp hr, Except.toOption,
        Option.any_some]
    | every =>
      by_cases hlist : ∃ items, actual = some (.array items)
      · obtain ⟨items, rfl⟩ := hlist
        rw [evaluateFields_every hop] at h
        obtain ⟨failed, hfailed, rfl⟩ := map_eq_ok.mp h
        have hall := failuresOfItems_eq_nil (P := fun v => Sat true condition (some v))
          (fun v p cs hcs => ih hcs) hfailed
        refine allAre_singleton.trans (verdict ?_)
        simp [everyItem, hall]
      · rw [evaluateFields_notAList (.inl hop) (not_exists.mp hlist)] at h
        cases h
        refine allAre_singleton.trans (verdict (iff_of_false Bool.false_ne_true ?_))
        rintro ⟨items, hitems, -⟩
        exact hlist ⟨items, hitems⟩
    | any =>
      by_cases hlist : ∃ items, actual = some (.array items)
      · obtain ⟨items, rfl⟩ := hlist
        rw [evaluateFields_any hop] at h
        obtain ⟨found, hfound, rfl⟩ := map_eq_ok.mp h
        have hsome := firstPassing_isSome (P := fun v => Sat true condition (some v))
          (fun v p cs hcs => ih hcs) hfound
        refine allAre_singleton.trans (verdict ?_)
        simp [someItem, hsome]
      · rw [evaluateFields_notAList (.inr hop) (not_exists.mp hlist)] at h
        cases h
        refine allAre_singleton.trans (verdict (iff_of_false Bool.false_ne_true ?_))
        rintro ⟨items, hitems, -⟩
        exact hlist ⟨items, hitems⟩
    | negation =>
      rw [evaluateFields_negation hop] at h
      obtain ⟨inner, hinner, rfl⟩ := map_eq_ok.mp h
      exact allAre_negate.trans (ih hinner)
    | _ => exact absurd rfl hwhole

theorem conditions_sat
    (ih : ∀ f ∈ fs, ∀ {b actual path cs}, evaluate f.2 actual path = .ok cs →
      (AllAre b cs ↔ Sat b f.2 actual))
    (h : evaluateFields fs true actual path = .ok cs) :
    AllAre b cs ↔ SatFields b fs true actual := by
  induction fs generalizing cs with
  | nil =>
    rw [evaluateFields_nil] at h
    cases h
    simp [AllAre, SatFields]
  | cons f fs ihfs =>
    obtain ⟨hf, hfs⟩ := List.forall_mem_cons.mp ih
    obtain ⟨first, rest, hfirst, hrest, rfl⟩ := parts_of_evaluateFields h
    rw [allAre_append, satFields_cons, condition_sat hf hfirst, ihfs hfs hrest]

end Conditions

theorem evaluate_sat [Libraries] (expected : Value) {b : Bool} {actual : Option Value}
    {path : String} {cs : List Check} (h : evaluate expected actual path = .ok cs) :
    AllAre b cs ↔ Sat b expected actual := by
  induction expected using Value.induction generalizing b actual path cs with
  | null | bool | number | string | array =>
    cases h
    exact allAre_singleton
  | object fields ih =>
    by_cases hfields : fields = []
    · subst hfields
      cases h
      exact allAre_singleton
    · rw [evaluate_object hfields] at h
      rw [sat_object hfields]
      split at h
      · next hconditional =>
        rw [if_pos hconditional]
        exact conditions_sat (fun f hf => ih f hf) h
      · next hconditional =>
        cases h
        rw [if_neg hconditional]
        exact allAre_singleton.trans eq_comm

/-- The checks of a value decide what the expectation says of it, whatever path they are shown at:
all of them pass just when all of it is true, and all of them fail just when all of it is false. -/
theorem evaluate_decides [Libraries] (expected : Value) (actual : Option Value) (path : String)
    (cs : List Check) (h : evaluate expected actual path = .ok cs) :
    (allPassed cs ↔ Sat true expected actual) ∧
      ((∀ c ∈ cs, c.passed = false) ↔ Sat false expected actual) :=
  ⟨allPassed_iff.trans (evaluate_sat expected h), evaluate_sat expected h⟩

/-- No text is among the items, each of them is a truth value, and the first one is `true`. -/
def flagsExpectation : Value :=
  .object
    [("not", .object [("some", .object [("type", .string "string")])]),
      ("every", .object [("in", .array [.bool true, .bool false])]), ("0", .bool true)]

def flags : Value := .array [.bool true, .bool false]

theorem evaluate_decides_flags :
    ∃ cs, evaluate flagsExpectation (some flags) "body" = .ok cs ∧ cs.length = 3 ∧
      Sat true flagsExpectation (some flags) ∧ ¬Sat false flagsExpectation (some flags) := by
  have h : evaluate flagsExpectation (some flags) "body" = .ok _ := rfl
  obtain ⟨hall, hnone⟩ := evaluate_decides _ _ _ _ h
  refine ⟨_, h, rfl, hall.mp rfl, fun hfalse => ?_⟩
  have hfirst := hnone.mpr hfalse _ (List.mem_cons_self)
  cases hfirst

end Check

end Assay

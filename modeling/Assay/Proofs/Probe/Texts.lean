import Assay.Probe.Text
import Assay.Proofs.Check.Patterns
import Assay.Proofs.Check.Satisfaction
import Assay.Proofs.Script.Trials
import Assay.Proofs.Text.Lines

namespace Assay

namespace TextChecks

open Check (FailsBy PatternOf Sat)
open Text (contains_iff)

variable {c : TextChecks} {label text : String} {found : List String}

/-- The patterns by which a text is checked. -/
def PatternAmong (c : TextChecks) (v : Value) : Prop :=
  (∃ pattern, c.pattern = some pattern ∧ v = .string pattern) ∨
    ∃ tree, c.json = some tree ∧ PatternOf tree v

/-- The text is a JSON value that is as expected. What it is held against can be evaluated, that is,
the patterns among it are regular expressions. -/
def IsJson [Libraries] (label text : String) (tree : Value) : Prop :=
  ∃ v, Json.read text = .ok v ∧ (∃ cs, Check.body v tree label = .ok cs) ∧ Sat true tree (some v)

theorem containsFailures_eq_nil {part : Option String} :
    containsFailures label text part = [] ↔
      ∀ needle, part = some needle → needle.toList <:+: text.toList := by
  cases part with
  | none => simp [containsFailures]
  | some needle => simp [containsFailures, contains_iff]

theorem lacksFailures_eq_nil {part : Option String} :
    lacksFailures label text part = [] ↔
      ∀ needle, part = some needle → ¬ needle.toList <:+: text.toList := by
  cases part with
  | none => simp [lacksFailures]
  | some needle => simp [lacksFailures, ← contains_iff]

variable [Libraries]

theorem patternFailures_eq_ok {part : Option String}
    (h : patternFailures label text part = .ok found) :
    found = [] ↔ ∀ pattern, part = some pattern →
      ∃ occurs, Libraries.readPattern pattern = .ok occurs ∧ occurs text := by
  cases part with
  | none =>
    cases h
    simp
  | some pattern =>
    obtain ⟨occurs, hcompile, hmatch⟩ := bind_eq_ok.mp h
    have hread := Check.compile_eq_ok.mp hcompile
    cases hmatches : occurs text <;> rw [hmatches] at hmatch <;> cases hmatch <;>
      simp [hread, hmatches]

theorem exists_patternFailures {pattern : String} {occurs : String → Bool}
    (hread : Libraries.readPattern pattern = .ok occurs) :
    ∃ found, patternFailures label text (some pattern) = .ok found := by
  rw [patternFailures, Check.compile_eq_ok.mpr hread]
  cases hmatches : occurs text with
  | true => exact ⟨[], if_pos hmatches⟩
  | false => exact ⟨_, if_neg (ne_true_of_eq_false hmatches)⟩

theorem jsonFailures_eq_ok {part : Option Value} (h : jsonFailures label text part = .ok found) :
    found = [] ↔ ∀ tree, part = some tree → IsJson label text tree := by
  cases part with
  | none =>
    cases h
    simp
  | some tree =>
    unfold jsonFailures at h
    unfold IsJson
    cases hread : Json.read text with
    | error fault =>
      rw [hread] at h
      cases h
      simp
    | ok v =>
      rw [hread] at h
      obtain ⟨cs, hcs, rfl⟩ := map_eq_ok.mp h
      rw [Check.failures_eq_nil, Check.evaluate_sat tree hcs]
      simp [hcs]

theorem patternFailures_failsBy :
    FailsBy c.PatternAmong (patternFailures label text c.pattern) := by
  cases hpart : c.pattern with
  | none => exact .ok []
  | some pattern =>
    have hamong : c.PatternAmong (.string pattern) := .inl ⟨pattern, hpart, rfl⟩
    have hcompile : FailsBy c.PatternAmong (Check.compile pattern) :=
      FailsBy.compile (v := .string pattern) hamong
    refine hcompile.bind fun occurs => ?_
    split
    · exact .ok _
    · exact .ok _

theorem jsonFailures_failsBy : FailsBy c.PatternAmong (jsonFailures label text c.json) := by
  cases hpart : c.json with
  | none => exact .ok []
  | some tree =>
    unfold jsonFailures
    cases Json.read text with
    | error fault => exact .ok _
    | ok v =>
      have htree := Check.evaluate_failsBy tree (some v) label
      exact (htree.mono fun v hv => .inr ⟨tree, hpart, hv⟩).map Check.failures

theorem failures_failsBy : FailsBy c.PatternAmong (c.failures label text) :=
  patternFailures_failsBy.bind fun _ => jsonFailures_failsBy.bind fun _ => .ok _

theorem failures_eq_ok :
    c.failures label text = .ok found ↔
      ∃ byPattern byJson, patternFailures label text c.pattern = .ok byPattern ∧
        jsonFailures label text c.json = .ok byJson ∧
        found = containsFailures label text c.contains ++
          (lacksFailures label text c.lacks ++ (byPattern ++ byJson)) := by
  constructor
  · intro h
    obtain ⟨byPattern, hpattern, hrest⟩ := bind_eq_ok.mp h
    obtain ⟨byJson, hjson, hfound⟩ := bind_eq_ok.mp hrest
    cases hfound
    exact ⟨byPattern, byJson, hpattern, hjson, rfl⟩
  · rintro ⟨byPattern, byJson, hpattern, hjson, rfl⟩
    exact bind_eq_ok.mpr ⟨byPattern, hpattern, bind_eq_ok.mpr ⟨byJson, hjson, rfl⟩⟩

theorem failures_of_invalid {pattern reason : String} (hpart : c.pattern = some pattern)
    (hread : Libraries.readPattern pattern = .error reason) :
    c.failures label text = .error (.invalidPattern pattern reason) := by
  unfold failures
  rw [hpart, patternFailures, Check.compile_eq_error.mpr ⟨reason, hread, rfl⟩]
  rfl

end TextChecks

end Assay

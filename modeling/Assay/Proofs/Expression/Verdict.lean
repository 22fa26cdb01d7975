import Assay.Expression.Evaluate
import Mathlib.Data.List.Basic

namespace Assay.Expression

open Text (occursIn splitOnPair)

def conjuncts (cs : List Char) : List (List Char) := splitOnPair '&' '&' cs

def alternatives (cs : List Char) : List (List Char) := splitOnPair '|' '|' cs

structure IsConjunct (cs : List Char) : Prop where
  noAnd : occursIn ['&', '&'] cs = false

structure IsLeaf (cs : List Char) : Prop extends IsConjunct cs where
  noOr : occursIn ['|', '|'] cs = false

/-- Which texts are looked at in order to judge one that can be cut into pieces. -/
inductive IsPiece : List Char → List Char → Prop
  | conjunct {c cs : List Char} (hand : occursIn ['&', '&'] cs) (h : c ∈ conjuncts cs) :
      IsPiece c cs
  | alternative {c cs : List Char} (hand : IsConjunct cs) (hor : occursIn ['|', '|'] cs)
      (h : c ∈ alternatives cs) : IsPiece c cs

variable {leaf : List Char → Option String} {cs c : List Char}

theorem IsPiece.length_lt (h : IsPiece c cs) : c.length < cs.length := by
  cases h with
  | conjunct hand h => exact Text.length_lt_of_mem_splitOnPair hand h
  | alternative hand hor h => exact Text.length_lt_of_mem_splitOnPair hor h

theorem isPiece_wf : WellFounded IsPiece :=
  Subrelation.wf IsPiece.length_lt (measure List.length).wf

theorem isConjunct_of_mem (h : c ∈ conjuncts cs) : IsConjunct c :=
  ⟨Text.not_occursIn_of_mem_splitOnPair h⟩

theorem IsConjunct.isLeaf_of_mem (hcs : IsConjunct cs) (h : c ∈ alternatives cs) : IsLeaf c := by
  refine ⟨⟨?_⟩, Text.not_occursIn_of_mem_splitOnPair h⟩
  rw [← Bool.not_eq_true]
  intro hin
  have hwhole := Text.occursIn_infix hin (Text.infix_of_mem_splitOnPair h)
  rw [hcs.noAnd] at hwhole
  cases hwhole

theorem failureBy_conjunction (hand : occursIn ['&', '&'] cs) :
    failureBy leaf cs = failureOfAll ((conjuncts cs).filterMap (failureBy leaf)) := by
  rw [failureBy, dif_pos hand]
  congr 1
  rw [List.filterMap_subtype (fun _ _ => rfl), List.unattach_attach]
  rfl

theorem IsConjunct.failureBy_alternatives (hcs : IsConjunct cs) (hor : occursIn ['|', '|'] cs) :
    failureBy leaf cs = failureOfAny ((alternatives cs).map (failureBy leaf)) := by
  have hand : ¬ occursIn ['&', '&'] cs = true := by simp [hcs.noAnd]
  rw [failureBy, dif_neg hand, dif_pos hor]
  congr 1
  rw [List.map_subtype (fun _ _ => rfl), List.unattach_attach]
  rfl

theorem IsLeaf.failureBy (hcs : IsLeaf cs) : failureBy leaf cs = leaf cs := by
  have hand : ¬ occursIn ['&', '&'] cs = true := by simp [hcs.noAnd]
  have hor : ¬ occursIn ['|', '|'] cs = true := by simp [hcs.noOr]
  rw [Expression.failureBy, dif_neg hand, dif_neg hor]

theorem failureOfAll_eq_none {reasons : List String} :
    failureOfAll reasons = none ↔ reasons = [] := by
  cases reasons <;> simp [failureOfAll]

theorem reasonsAgainst_eq_none {failures : List (Option String)} :
    reasonsAgainst failures = none ↔ none ∈ failures := by
  induction failures with
  | nil => simp [reasonsAgainst]
  | cons failure failures ih => cases failure <;> simp [reasonsAgainst, ih]

theorem failureOfAny_eq_none {failures : List (Option String)} :
    failureOfAny failures = none ↔ none ∈ failures := by
  rw [failureOfAny, Option.map_eq_none_iff, reasonsAgainst_eq_none]

theorem IsConjunct.failureBy_eq_none (hcs : IsConjunct cs) :
    Expression.failureBy leaf cs = none ↔ ∃ d ∈ alternatives cs, leaf d = none := by
  cases hor : occursIn ['|', '|'] cs with
  | true =>
    rw [hcs.failureBy_alternatives hor, failureOfAny_eq_none, List.mem_map]
    apply exists_congr
    intro d
    apply and_congr_right
    intro hd
    rw [(hcs.isLeaf_of_mem hd).failureBy]
  | false =>
    have hone : alternatives cs = [cs] := Text.splitOnPair_of_not_occursIn hor
    rw [IsLeaf.failureBy ⟨hcs, hor⟩, hone]
    simp

theorem failureBy_eq_none :
    failureBy leaf cs = none ↔ ∀ c ∈ conjuncts cs, ∃ d ∈ alternatives c, leaf d = none := by
  cases hand : occursIn ['&', '&'] cs with
  | true =>
    rw [failureBy_conjunction hand, failureOfAll_eq_none, List.filterMap_eq_nil_iff]
    apply forall₂_congr
    intro c hc
    exact (isConjunct_of_mem hc).failureBy_eq_none
  | false =>
    have hone : conjuncts cs = [cs] := Text.splitOnPair_of_not_occursIn hand
    rw [IsConjunct.failureBy_eq_none ⟨hand⟩, hone]
    simp

theorem failureBy_congr {other : List Char → Option String}
    (h : ∀ cs, IsLeaf cs → leaf cs = other cs) (cs : List Char) :
    failureBy leaf cs = failureBy other cs := by
  induction cs using isPiece_wf.induction with
  | _ cs ih =>
    cases hand : occursIn ['&', '&'] cs with
    | true =>
      rw [failureBy_conjunction hand, failureBy_conjunction hand]
      congr 1
      apply List.filterMap_congr
      intro c hc
      exact ih c (.conjunct hand hc)
    | false =>
      have hcs : IsConjunct cs := ⟨hand⟩
      cases hor : occursIn ['|', '|'] cs with
      | true =>
        rw [hcs.failureBy_alternatives hor, hcs.failureBy_alternatives hor]
        congr 1
        apply List.map_congr_left
        intro c hc
        exact ih c (.alternative hcs hor hc)
      | false =>
        have hleaf : IsLeaf cs := ⟨hcs, hor⟩
        rw [hleaf.failureBy, hleaf.failureBy, h cs hleaf]

theorem joined_ne_empty {reason : String} {reasons : List String} (h : reason ≠ "") :
    joined (reason :: reasons) ≠ "" := by
  unfold joined
  cases reasons with
  | nil => simpa using h
  | cons other reasons =>
    rw [String.intercalate_cons_cons]
    simp [h]

theorem failureOfAll_ne_empty {reasons : List String} {m : String} (h : ∀ r ∈ reasons, r ≠ "")
    (hm : failureOfAll reasons = some m) : m ≠ "" := by
  cases reasons with
  | nil => cases hm
  | cons reason reasons =>
    cases hm
    exact joined_ne_empty (h reason List.mem_cons_self)

theorem failureOfAny_ne_empty {failures : List (Option String)} {m : String}
    (hm : failureOfAny failures = some m) : m ≠ "" := by
  obtain ⟨reasons, -, rfl⟩ := Option.map_eq_some_iff.mp hm
  simp

theorem failureBy_ne_empty (h : ∀ cs m, leaf cs = some m → m ≠ "") {m : String}
    (hm : failureBy leaf cs = some m) : m ≠ "" := by
  induction cs using isPiece_wf.induction generalizing m with
  | _ cs ih =>
    cases hand : occursIn ['&', '&'] cs with
    | true =>
      rw [failureBy_conjunction hand] at hm
      refine failureOfAll_ne_empty ?_ hm
      intro reason hreason
      obtain ⟨c, hc, hcm⟩ := List.mem_filterMap.mp hreason
      exact ih c (.conjunct hand hc) hcm
    | false =>
      have hcs : IsConjunct cs := ⟨hand⟩
      cases hor : occursIn ['|', '|'] cs with
      | true =>
        rw [hcs.failureBy_alternatives hor] at hm
        exact failureOfAny_ne_empty hm
      | false =>
        rw [IsLeaf.failureBy ⟨hcs, hor⟩] at hm
        exact h cs m hm

theorem leafFailure_ne_empty {r : Response} {m : String} (h : leafFailure r cs = some m) :
    m ≠ "" := by
  unfold leafFailure at h
  dsimp only at h
  split at h
  · cases h
    simp
  · split at h
    · cases h
    · cases h
      simp

/-- An expression is judged in finitely many steps, by comparisons in which no separator is left. It
holds when each of its conjuncts has an alternative that holds, and else a reason is given. -/
theorem failure_decides (r : Response) (expression : String) :
    Acc IsPiece expression.toList ∧
    (failure r expression = none ↔
      ∀ c ∈ conjuncts expression.toList, ∃ d ∈ alternatives c, leafFailure r d = none) ∧
    (∀ leaf, (∀ cs, IsLeaf cs → leaf cs = leafFailure r cs) →
      failureBy leaf expression.toList = failure r expression) ∧
    ∀ m, failure r expression = some m → m ≠ "" := by
  refine ⟨isPiece_wf.apply _, failureBy_eq_none, ?_, ?_⟩
  · intro leaf h
    exact failureBy_congr h _
  · intro m hm
    exact failureBy_ne_empty (fun cs m => leafFailure_ne_empty) hm

/-- Separators in runs of three, where a part of one is left in a comparison. -/
theorem failure_decides_runs :
    let r : Response := ⟨201, [], .null⟩
    let expression := "status == 200 ||| status == 201 &&& status > 200"
    let reason := "None of the alternatives held: Expression failed: status == 200 " ++
      "(left: 201, right: 200); Expression failed: | status == 201 " ++
      "(left: undefined, right: 201); Expression failed: & status > 200 " ++
      "(left: undefined, right: 200)"
    let leaf (cs : List Char) : Option String :=
      if occursIn ['&', '&'] cs then none else leafFailure r cs
    (∀ cs, IsLeaf cs → leaf cs = leafFailure r cs) ∧ failure r expression = some reason ∧
      failureBy leaf expression.toList = failure r expression ∧ reason ≠ "" := by
  intro r expression reason leaf
  have hleaf : ∀ cs, IsLeaf cs → leaf cs = leafFailure r cs := by
    intro cs hcs
    simp [leaf, hcs.noAnd]
  have hreason : failure r expression = some reason := by decide +kernel
  have h := failure_decides r expression
  exact ⟨hleaf, hreason, h.2.2.1 leaf hleaf, h.2.2.2 reason hreason⟩

end Assay.Expression

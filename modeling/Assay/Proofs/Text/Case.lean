import Assay.Proofs.Text.Category
import Assay.Text.Blank
import Assay.Text.Case
import Assay.Text.Split
import Mathlib

namespace Assay.Text

variable {c d : Char} {before cs : List Char} {s t : String}

theorem toLower_eq_of_not_isAlpha (h : c.isAlpha = false) : c.toLower = c :=
  Char.toLower_eq_of_not_isUpper fun hupper => by simp [Char.isAlpha, hupper] at h

theorem toLower_eq_iff (hd : d.isAlpha = false) : c.toLower = d ↔ c = d := by
  constructor
  · rintro rfl
    rw [Char.isAlpha_toLower_eq_isAlpha] at hd
    exact (toLower_eq_of_not_isAlpha hd).symm
  · rintro rfl
    exact toLower_eq_of_not_isAlpha hd

/-- A property that all letters have in common does not depend on case. -/
theorem apply_toLower {β : Type} {f : Char → β} {b : β} (h : ∀ c, c.isAlpha → f c = b) (c : Char) :
    f c.toLower = f c := by
  by_cases hc : c.isAlpha
  · rw [h c hc, h c.toLower (by rwa [Char.isAlpha_toLower_eq_isAlpha])]
  · rw [toLower_eq_of_not_isAlpha (Bool.eq_false_iff.mpr hc)]

theorem category_of_isAlpha (h : c.isAlpha) : category c = .upper ∨ category c = .lower := by
  rcases isAlpha_iff.mp h with hupper | hlower
  · exact .inl (category_upper hupper.1 hupper.2)
  · exact .inr (category_lower hlower.1 hlower.2)

theorem isBlank_toLower (c : Char) : isBlank c.toLower = isBlank c := by
  refine apply_toLower (b := false) (fun c hc => ?_) c
  rw [isAlpha_iff] at hc
  simp [isBlank]
  omega

theorem isCaseIgnorable_toLower (c : Char) : isCaseIgnorable c.toLower = isCaseIgnorable c := by
  refine apply_toLower (b := false) (fun c hc => ?_) c
  have hmark : "':.·՟״‘’․‧︓﹒﹕＇．：".toList.contains c = false := by
    have hall : ∀ d ∈ "':.·՟״‘’․‧︓﹒﹕＇．：".toList, d.isAlpha = false := by simp
    rw [Bool.eq_false_iff, ne_eq, List.contains_iff_mem]
    intro hmem
    rw [hall c hmem] at hc
    cases hc
  unfold isCaseIgnorable
  rcases category_of_isAlpha hc with h | h <;> rw [h, hmark] <;> rfl

theorem isCased_toLower (c : Char) : isCased c.toLower = isCased c := by
  refine apply_toLower (b := true) (fun c hc => ?_) c
  unfold isCased
  rcases category_of_isAlpha hc with h | h <;> rw [h] <;> rfl

theorem lowerChar_toLower (c : Char) : lowerChar c.toLower = lowerChar c := by
  by_cases hc : c.isAlpha
  · have hlow : ∀ d : Char, d.isAlpha → lowerChar d = d.toLower := by
      intro d hd
      rw [isAlpha_iff] at hd
      exact if_pos (by omega)
    rw [hlow c hc, hlow _ (by rwa [Char.isAlpha_toLower_eq_isAlpha]),
      Char.toLower_toLower_eq_toLower]
  · rw [toLower_eq_of_not_isAlpha (Bool.eq_false_iff.mpr hc)]

theorem startsCased_map_toLower (cs : List Char) :
    startsCased (cs.map Char.toLower) = startsCased cs := by
  have hignored : isCaseIgnorable ∘ Char.toLower = isCaseIgnorable := by
    funext c
    rw [Function.comp_apply, isCaseIgnorable_toLower]
  unfold startsCased
  rw [List.dropWhile_map, hignored]
  cases cs.dropWhile isCaseIgnorable with
  | nil => rfl
  | cons c _ => simp only [List.map_cons, isCased_toLower]

theorem lowerAfter_map_toLower (before cs : List Char) :
    lowerAfter (before.map Char.toLower) (cs.map Char.toLower) = lowerAfter before cs := by
  induction cs generalizing before with
  | nil => rfl
  | cons c cs ih =>
    have hsigma : (c.toLower == 'Σ') = (c == 'Σ') := by
      rw [Bool.eq_iff_iff, beq_iff_eq, beq_iff_eq, toLower_eq_iff (by decide)]
    have hdotted : (c.toLower.toNat == 0x130) = (c.toNat == 0x130) :=
      apply_toLower (f := fun c => c.toNat == 0x130) (b := false) (fun c hc => by
        rw [isAlpha_iff] at hc
        simp
        omega) c
    rw [List.map_cons, lowerAfter, lowerAfter, ← List.map_cons, ih, startsCased_map_toLower,
      startsCased_map_toLower, hsigma, hdotted, lowerChar_toLower]

theorem sameIgnoringCase_iff :
    sameIgnoringCase s t ↔ s.toList.map Char.toLower = t.toList.map Char.toLower := beq_iff_eq

/-- The lower case of a text, whatever letters it has, does not depend on the case of those of
ASCII. -/
theorem lower_congr (h : sameIgnoringCase s t) : lower s = lower t := by
  have hmap := lowerAfter_map_toLower []
  rw [sameIgnoringCase_iff] at h
  rw [lower, lower, ← hmap s.toList, h, hmap]

theorem trimLeftChars_map_toLower (cs : List Char) :
    trimLeftChars (cs.map Char.toLower) = (trimLeftChars cs).map Char.toLower := by
  have hblank : isBlank ∘ Char.toLower = isBlank := funext isBlank_toLower
  rw [trimLeftChars, List.dropWhile_map, hblank, trimLeftChars]

theorem trimRightChars_map_toLower (cs : List Char) :
    trimRightChars (cs.map Char.toLower) = (trimRightChars cs).map Char.toLower := by
  have hreverse := trimLeftChars_map_toLower cs.reverse
  rw [trimLeftChars, List.map_reverse] at hreverse
  rw [trimRightChars, hreverse, ← List.map_reverse, trimRightChars, trimLeftChars]

theorem trimChars_map_toLower (cs : List Char) :
    trimChars (cs.map Char.toLower) = (trimChars cs).map Char.toLower := by
  rw [trimChars, trimLeftChars_map_toLower, trimRightChars_map_toLower, trimChars]

theorem splitOnPair_map_toLower (hc : c.isAlpha = false) (hd : d.isAlpha = false) (cs : List Char) :
    splitOnPair c d (cs.map Char.toLower) = (splitOnPair c d cs).map (List.map Char.toLower) := by
  fun_induction splitOnPair c d cs with
  | case1 => rfl
  | case2 a => rfl
  | case3 a b cs h ih =>
    obtain ⟨rfl, rfl⟩ := h
    rw [List.map_cons, List.map_cons, toLower_eq_of_not_isAlpha hc, toLower_eq_of_not_isAlpha hd,
      splitOnPair, if_pos ⟨rfl, rfl⟩, ih]
    rfl
  | case4 a b cs h hnil ih =>
    have hlow : ¬ (a.toLower = c ∧ b.toLower = d) := by rwa [toLower_eq_iff hc, toLower_eq_iff hd]
    rw [hnil, List.map_cons] at ih
    rw [List.map_cons, List.map_cons, splitOnPair, if_neg hlow, ih]
    rfl
  | case5 a b cs h w ws hws ih =>
    have hlow : ¬ (a.toLower = c ∧ b.toLower = d) := by rwa [toLower_eq_iff hc, toLower_eq_iff hd]
    rw [hws, List.map_cons] at ih
    rw [List.map_cons, List.map_cons, splitOnPair, if_neg hlow, ih]
    rfl

end Assay.Text

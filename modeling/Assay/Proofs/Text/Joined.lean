import Assay.Text.Blank
import Assay.Text.Pieces
import Mathlib.Data.List.DropRight

namespace Assay.Text

variable {cs ds : List Char} {a b c : Char}

/-- Texts of blanks alone. -/
abbrev Blanks := {w : List Char // ∀ c ∈ w, isBlank c}

theorem trimChars_between (w : Blanks) (cs : List Char) (w' : Blanks) :
    trimChars (w.1 ++ (cs ++ w'.1)) = trimChars cs := by
  have hright (ds : List Char) : trimRightChars (ds ++ w'.1) = trimRightChars ds := by
    unfold trimRightChars
    rw [List.reverse_append, List.dropWhile_append_of_pos]
    intro c hc
    exact w'.2 c (List.mem_reverse.mp hc)
  unfold trimChars trimLeftChars
  rw [List.dropWhile_append_of_pos w.2, List.dropWhile_append]
  split
  · next hblank =>
    rw [List.isEmpty_iff] at hblank
    rw [hblank, List.dropWhile_eq_nil_iff.mpr w'.2]
  · exact hright _

theorem exists_trimChars (cs : List Char) :
    ∃ w w' : Blanks, cs = w.1 ++ (trimChars cs ++ w'.1) := by
  refine ⟨⟨cs.takeWhile isBlank, fun c => List.mem_takeWhile_imp⟩,
    ⟨(trimLeftChars cs).rtakeWhile isBlank, fun c => List.mem_rtakeWhile_imp⟩, ?_⟩
  have hright : trimChars cs ++ (trimLeftChars cs).rtakeWhile isBlank = trimLeftChars cs :=
    List.rdropWhile_append_rtakeWhile
  rw [hright]
  exact List.takeWhile_append_dropWhile.symm

theorem trimChars_trimChars (cs : List Char) : trimChars (trimChars cs) = trimChars cs := by
  obtain ⟨w, w', h⟩ := exists_trimChars cs
  rw [← trimChars_between w (trimChars cs) w', ← h]

theorem isInfix_trimChars (cs : List Char) : trimChars cs <:+: cs := by
  obtain ⟨w, w', h⟩ := exists_trimChars cs
  exact ⟨w.1, w'.1, by rw [List.append_assoc, ← h]⟩

theorem blanks_eq_nil (w w' : Blanks)
    (h : trimChars (w.1 ++ (cs ++ w'.1)) = w.1 ++ (cs ++ w'.1)) : w.1 = [] ∧ w'.1 = [] := by
  have hlength := (isInfix_trimChars cs).length_le
  rw [← trimChars_between w cs w', h] at hlength
  simp only [List.length_append] at hlength
  refine ⟨List.eq_nil_of_length_eq_zero ?_, List.eq_nil_of_length_eq_zero ?_⟩
  · omega
  · omega

theorem isBlank_head (h : trimChars (c :: cs) = c :: cs) : isBlank c = false := by
  by_contra hc
  have hblank : ∀ d ∈ [c], isBlank d := by simpa using hc
  rw [← List.append_nil cs] at h
  have hnone := blanks_eq_nil ⟨[c], hblank⟩ ⟨[], List.forall_mem_nil _⟩ h
  cases hnone.1

theorem isBlank_last (h : trimChars (cs ++ [c]) = cs ++ [c]) : isBlank c = false := by
  by_contra hc
  have hblank : ∀ d ∈ [c], isBlank d := by simpa using hc
  have hnone := blanks_eq_nil ⟨[], List.forall_mem_nil _⟩ ⟨[c], hblank⟩ h
  cases hnone.2

theorem trimChars_between_shown (cs ds : List Char) (ha : isBlank a = false)
    (hb : isBlank b = false) :
    trimChars (a :: (cs ++ b :: ds)) = a :: (cs ++ b :: trimRightChars ds) := by
  have hleft : trimLeftChars (a :: (cs ++ b :: ds)) = a :: (cs ++ b :: ds) := by
    simp [trimLeftChars, ha]
  rw [trimChars, hleft, trimRightChars, trimRightChars]
  cases h : ds.reverse.dropWhile isBlank with
  | nil => simp [List.dropWhile_append, h, hb]
  | cons d rest => simp [List.dropWhile_append, h]

/-- What begins and ends with characters that show has no blanks to lose. -/
theorem trimChars_shown (cs : List Char) (ha : isBlank a = false) (hb : isBlank b = false) :
    trimChars (a :: (cs ++ [b])) = a :: (cs ++ [b]) := trimChars_between_shown cs [] ha hb

theorem trimChars_enclosed (cs : List Char) (hc : isBlank c = false) :
    trimChars (c :: (cs ++ [c])) = c :: (cs ++ [c]) := trimChars_shown cs hc hc

/-- What stands behind a character that shows loses no blanks if it has none at its end. -/
theorem trimChars_behind (cs : List Char) (hc : isBlank c = false) (hne : ds ≠ [])
    (h : trimChars ds = ds) : trimChars (c :: (cs ++ ds)) = c :: (cs ++ ds) := by
  obtain ⟨init, d, rfl⟩ := (List.eq_nil_or_concat' ds).resolve_left hne
  rw [← List.append_assoc]
  exact trimChars_shown (cs ++ init) hc (isBlank_last h)

/-- What begins with a character that shows loses blanks at its end only. -/
theorem exists_trimmed_cons (cs : List Char) (hc : isBlank c = false) :
    ∃ (ds : List Char) (w : Blanks), cs = ds ++ w.1 ∧ trimChars (c :: ds) = c :: ds := by
  obtain ⟨⟨u, hu⟩, w, h⟩ := exists_trimChars (c :: cs)
  have hnot {v : List Char} (hv : ∀ d ∈ v, isBlank d) : c ∉ v := fun hmem => by
    simp [hv c hmem] at hc
  cases u with
  | cons d u =>
    obtain ⟨rfl, -⟩ := List.cons.inj h
    exact absurd List.mem_cons_self (hnot hu)
  | nil =>
    have hcut := trimChars_trimChars (c :: cs)
    cases htrim : trimChars (c :: cs) with
    | nil =>
      rw [htrim, List.nil_append, List.nil_append] at h
      have hmem : c ∈ w.1 := by simp [← h]
      exact absurd hmem (hnot w.2)
    | cons d ds =>
      rw [htrim] at h hcut
      obtain ⟨rfl, hcs⟩ := List.cons.inj h
      exact ⟨ds, w, hcs, hcut⟩

theorem trimLeftChars_between (w : Blanks) (cs : List Char) (hc : isBlank c = false) :
    trimLeftChars (w.1 ++ c :: cs) = c :: cs := by
  rw [trimLeftChars, List.dropWhile_append_of_pos w.2, List.dropWhile_cons_of_neg]
  simp [hc]

theorem pair_prefix_iff : [a, b] <+: c :: cs ↔ a = c ∧ cs.head? = some b := by
  cases cs <;> simp [List.cons_prefix_cons, eq_comm]

theorem pair_infix_cons (h : c ≠ a) : [a, b] <:+: c :: cs ↔ [a, b] <:+: cs := by
  rw [List.infix_cons_iff, pair_prefix_iff]
  simp [Ne.symm h]

theorem pair_infix_append (h : a ∉ cs) : [a, b] <:+: cs ++ ds ↔ [a, b] <:+: ds := by
  induction cs with
  | nil => exact Iff.rfl
  | cons c cs ih =>
    obtain ⟨hc, hcs⟩ := List.ne_and_not_mem_of_not_mem_cons h
    rw [List.cons_append, pair_infix_cons (Ne.symm hc), ih hcs]

/-- A pair of characters does not reach over a character of another kind. -/
theorem pair_infix_append_cons (ha : c ≠ a) (hb : c ≠ b) :
    [a, b] <:+: cs ++ c :: ds ↔ [a, b] <:+: cs ∨ [a, b] <:+: ds := by
  induction cs with
  | nil => simp [pair_infix_cons ha]
  | cons d cs ih =>
    have hhead : (cs ++ c :: ds).head? = some b ↔ cs.head? = some b := by
      cases cs with
      | nil => simp [hb]
      | cons e cs => exact Iff.rfl
    rw [List.cons_append, List.infix_cons_iff, List.infix_cons_iff, pair_prefix_iff,
      pair_prefix_iff, hhead, ih, or_assoc]

theorem pair_infix_append_right (h : a ∉ ds) : [a, a] <:+: cs ++ ds ↔ [a, a] <:+: cs := by
  cases ds with
  | nil => rw [List.append_nil]
  | cons c ds =>
    obtain ⟨hc, hds⟩ := List.ne_and_not_mem_of_not_mem_cons h
    have hrest : ¬ [a, a] <:+: ds := fun hin => hds (hin.subset List.mem_cons_self)
    rw [pair_infix_append_cons hc.symm hc.symm, or_iff_left hrest]

theorem exists_first_pair (h : [a, b] <:+: cs) :
    ∃ pre post, cs = pre ++ a :: b :: post ∧ ¬ [a, b] <:+: pre ++ [a] := by
  induction cs with
  | nil => simp at h
  | cons c cs ih =>
    by_cases hstart : [a, b] <+: c :: cs
    · obtain ⟨post, hpost⟩ := hstart
      refine ⟨[], post, hpost.symm, fun hin => ?_⟩
      have hlength := hin.length_le
      simp at hlength
    · obtain ⟨pre, post, rfl, hfirst⟩ := ih ((List.infix_cons_iff.mp h).resolve_left hstart)
      refine ⟨c :: pre, post, rfl, fun hin => ?_⟩
      rcases List.infix_cons_iff.mp hin with hin | hin
      · apply hstart
        rw [pair_prefix_iff] at hin ⊢
        cases pre <;> simpa using hin
      · exact hfirst hin

theorem splitOnPair_first (h : ¬ [a, b] <:+: cs ++ [a]) :
    splitOnPair a b (cs ++ a :: b :: ds) = cs :: splitOnPair a b ds := by
  induction cs with
  | nil => simp [splitOnPair]
  | cons c cs ih =>
    rw [List.cons_append, List.infix_cons_iff, not_or] at h
    obtain ⟨hstart, hrest⟩ := h
    have hcut := ih hrest
    cases cs with
    | nil =>
      rw [List.nil_append] at hcut
      have hpair : ¬ (c = a ∧ a = b) := by simpa [pair_prefix_iff, eq_comm] using hstart
      simp only [List.cons_append, List.nil_append, splitOnPair] at hcut ⊢
      rw [if_neg hpair]
      simp
    | cons d cs =>
      have hpair : ¬ (c = a ∧ d = b) := by simpa [pair_prefix_iff, eq_comm] using hstart
      rw [List.cons_append] at hcut
      rw [List.cons_append, List.cons_append, splitOnPair, if_neg hpair, hcut]

theorem splitOnChar_eq_splitOn (a : Char) (cs : List Char) : splitOnChar a cs = cs.splitOn a := by
  induction cs with
  | nil => rfl
  | cons c cs ih =>
    rw [List.splitOn_cons_eq_if_modifyHead, splitOnChar, ih]
    by_cases h : c = a
    · simp [h]
    · obtain ⟨w, ws, hcut⟩ := List.exists_cons_of_ne_nil (List.splitOn_ne_nil a cs)
      simp [h, hcut]

theorem not_mem_of_mem_splitOn {w : List Char} (h : w ∈ cs.splitOn a) : a ∉ w := by
  induction cs generalizing w with
  | nil =>
    obtain rfl := List.mem_singleton.mp h
    exact List.not_mem_nil
  | cons c cs ih =>
    obtain ⟨v, vs, hcut⟩ := List.exists_cons_of_ne_nil (List.splitOn_ne_nil a cs)
    rw [List.splitOn_cons_eq_if_modifyHead] at h
    split at h
    · rcases List.mem_cons.mp h with rfl | h
      · exact List.not_mem_nil
      · exact ih h
    · next hc =>
      rw [hcut, List.modifyHead_cons] at h
      rw [hcut] at ih
      rcases List.mem_cons.mp h with rfl | h
      · have hne : a ≠ c := fun heq => hc (beq_iff_eq.mpr heq.symm)
        exact List.not_mem_cons_of_ne_of_not_mem hne (ih List.mem_cons_self)
      · exact ih (List.mem_cons_of_mem v h)

theorem cutAt_append (h : a ∉ cs) (ds : List Char) : cutAt a (cs ++ a :: ds) = some (cs, ds) := by
  induction cs with
  | nil => simp [cutAt]
  | cons c cs ih =>
    obtain ⟨hc, hcs⟩ := List.ne_and_not_mem_of_not_mem_cons h
    rw [List.cons_append, cutAt, if_neg hc.symm, ih hcs]
    rfl

theorem cutAt_eq_some_iff {ws : List Char} :
    cutAt a ws = some (cs, ds) ↔ ws = cs ++ a :: ds ∧ a ∉ cs := by
  constructor
  · intro h
    induction ws generalizing cs with
    | nil => cases h
    | cons c ws ih =>
      rw [cutAt] at h
      split at h
      · next hc =>
        cases h
        exact ⟨congrArg (· :: ds) hc, List.not_mem_nil⟩
      · next hc =>
        obtain ⟨⟨bs, es⟩, hcut, heq⟩ := Option.map_eq_some_iff.mp h
        cases heq
        obtain ⟨rfl, hbs⟩ := ih hcut
        exact ⟨rfl, List.not_mem_cons_of_ne_of_not_mem (Ne.symm hc) hbs⟩
  · rintro ⟨rfl, h⟩
    exact cutAt_append h ds

theorem cutAtLast_eq_some_iff {ws : List Char} :
    cutAtLast a ws = some (cs, ds) ↔ ws = cs ++ a :: ds ∧ a ∉ ds := by
  have hreverse : cs ++ a :: ds = (ds.reverse ++ a :: cs.reverse).reverse := by simp
  rw [cutAtLast, hreverse, ← List.reverse_eq_iff, ← List.mem_reverse, ← cutAt_eq_some_iff]
  constructor
  · intro h
    obtain ⟨⟨bs, es⟩, hcut, heq⟩ := Option.map_eq_some_iff.mp h
    cases heq
    rwa [List.reverse_reverse, List.reverse_reverse]
  · intro h
    rw [h, Option.map_some, List.reverse_reverse, List.reverse_reverse]

end Assay.Text

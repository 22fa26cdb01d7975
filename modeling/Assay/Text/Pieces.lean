import Assay.Text.Split

namespace Assay.Text

variable {needle cs ds w : List Char} {a b : Char}

theorem occursIn_iff : occursIn needle cs ↔ needle <:+: cs := by
  induction cs with
  | nil => simp [occursIn]
  | cons c cs ih => simp [occursIn, ih, List.infix_cons_iff]

theorem occursIn_infix (h : occursIn needle cs) (hcs : cs <:+: ds) : occursIn needle ds :=
  occursIn_iff.mpr ((occursIn_iff.mp h).trans hcs)

theorem exists_splitOnPair (a b : Char) (cs : List Char) :
    ∃ w ws, splitOnPair a b cs = w :: ws ∧ w <+: cs := by
  fun_induction splitOnPair a b cs with
  | case1 => exact ⟨[], [], rfl, List.nil_prefix⟩
  | case2 c => exact ⟨[c], [], rfl, List.prefix_rfl⟩
  | case3 c d cs h ih => exact ⟨[], _, rfl, List.nil_prefix⟩
  | case4 c d cs h hnil ih =>
    obtain ⟨w, ws, hw, -⟩ := ih
    rw [hnil] at hw
    cases hw
  | case5 c d cs h w ws hws ih =>
    obtain ⟨v, vs, hv, hpre⟩ := ih
    rw [hws] at hv
    cases hv
    exact ⟨c :: w, ws, rfl, List.cons_prefix_cons.mpr ⟨rfl, hpre⟩⟩

theorem infix_of_mem_splitOnPair (h : w ∈ splitOnPair a b cs) : w <:+: cs := by
  fun_induction splitOnPair a b cs generalizing w with
  | case1 =>
    cases List.mem_singleton.mp h
    exact List.infix_rfl
  | case2 c =>
    cases List.mem_singleton.mp h
    exact List.infix_rfl
  | case3 c d cs hpair ih =>
    rcases List.mem_cons.mp h with rfl | h
    · exact List.nil_infix
    · exact (ih h).trans (List.suffix_append [c, d] cs).isInfix
  | case4 c d cs hpair hnil ih =>
    cases List.mem_singleton.mp h
    exact (List.prefix_append [c] (d :: cs)).isInfix
  | case5 c d cs hpair v vs hvs ih =>
    rcases List.mem_cons.mp h with rfl | h
    · obtain ⟨u, us, hu, hpre⟩ := exists_splitOnPair a b (d :: cs)
      rw [hvs] at hu
      cases hu
      exact (List.cons_prefix_cons.mpr ⟨rfl, hpre⟩).isInfix
    · exact (ih (hvs ▸ List.mem_cons_of_mem v h)).trans (List.suffix_cons c (d :: cs)).isInfix

/-- Also in a run of more than two of the separating characters, every second one is cut away. -/
theorem not_occursIn_of_mem_splitOnPair (h : w ∈ splitOnPair a b cs) :
    occursIn [a, b] w = false := by
  rw [← Bool.not_eq_true, occursIn_iff]
  fun_induction splitOnPair a b cs generalizing w with
  | case1 =>
    cases List.mem_singleton.mp h
    simp
  | case2 c =>
    cases List.mem_singleton.mp h
    intro hin
    have hlength := hin.length_le
    simp at hlength
  | case3 c d cs hpair ih =>
    rcases List.mem_cons.mp h with rfl | h
    · simp
    · exact ih h
  | case4 c d cs hpair hnil ih =>
    obtain ⟨u, us, hu, -⟩ := exists_splitOnPair a b (d :: cs)
    rw [hnil] at hu
    cases hu
  | case5 c d cs hpair v vs hvs ih =>
    rcases List.mem_cons.mp h with rfl | h
    · -- The piece goes on with the character after `c`, so no separator begins at `c`.
      obtain ⟨u, us, hu, hpre⟩ := exists_splitOnPair a b (d :: cs)
      rw [hvs] at hu
      cases hu
      intro hin
      rcases List.infix_cons_iff.mp hin with hstart | hin
      · obtain ⟨rfl, hb⟩ := List.cons_prefix_cons.mp hstart
        obtain ⟨rfl, -⟩ := List.cons_prefix_cons.mp (hb.trans hpre)
        exact hpair ⟨rfl, rfl⟩
      · exact ih (hvs ▸ List.mem_cons_self) hin
    · exact ih (hvs ▸ List.mem_cons_of_mem v h)

theorem splitOnPair_of_not_occursIn (h : occursIn [a, b] cs = false) :
    splitOnPair a b cs = [cs] := by
  rw [← Bool.not_eq_true, occursIn_iff] at h
  fun_induction splitOnPair a b cs with
  | case1 => rfl
  | case2 c => rfl
  | case3 c d cs hpair ih =>
    obtain ⟨rfl, rfl⟩ := hpair
    exact absurd (List.prefix_append [c, d] cs).isInfix h
  | case4 c d cs hpair hnil ih =>
    have hrest := ih fun hin => h (hin.trans (List.suffix_cons c (d :: cs)).isInfix)
    rw [hnil] at hrest
    cases hrest
  | case5 c d cs hpair v vs hvs ih =>
    have hrest := ih fun hin => h (hin.trans (List.suffix_cons c (d :: cs)).isInfix)
    rw [hvs] at hrest
    cases hrest
    rfl

theorem length_lt_of_mem_splitOnPair (h : occursIn [a, b] cs) (hw : w ∈ splitOnPair a b cs) :
    w.length < cs.length := by
  have hin := infix_of_mem_splitOnPair hw
  apply Nat.lt_of_le_of_ne hin.length_le
  intro hlength
  have hwhole : w = cs := hin.eq_of_length hlength
  rw [← hwhole, not_occursIn_of_mem_splitOnPair hw] at h
  cases h

end Assay.Text

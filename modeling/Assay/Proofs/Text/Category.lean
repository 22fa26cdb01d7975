import Assay.Text.Category
import Mathlib

namespace Assay.Text

variable {c : Char} {n : Nat} {run : CategoryRun} {before after : List CategoryRun}

/-- Each run starts behind the one in front of it. -/
def InOrder (runs : List CategoryRun) : Prop := runs.Pairwise fun a b => a.start < b.start

/-- Halving finds the last run that starts at or before a code point. -/
theorem categoryBetween_eq (horder : InOrder (before ++ run :: after)) (hn : run.start ≤ n)
    (hafter : ∀ r ∈ after, n < r.start) {lo hi : Nat} (hlo : lo ≤ before.length)
    (hhi : before.length < hi) :
    categoryBetween (before ++ run :: after).toArray n lo hi = run.category := by
  have hbefore : ∀ r ∈ before, r.start ≤ n := by
    intro r hr
    have hlt := (List.pairwise_append.mp horder).2.2 r hr run List.mem_cons_self
    omega
  fun_induction categoryBetween (before ++ run :: after).toArray n lo hi with
  | case1 lo hi hwide mid found hfound hle ih =>
    refine ih ?_ hhi
    -- A run behind the one that is looked for would start too late.
    by_contra hlt
    rw [List.getElem?_toArray, List.getElem?_append_right (by omega)] at hfound
    obtain ⟨k, hk⟩ : ∃ k, mid - before.length = k + 1 := ⟨mid - before.length - 1, by omega⟩
    rw [hk, List.getElem?_cons_succ] at hfound
    have := hafter found (List.mem_of_getElem? hfound)
    omega
  | case2 lo hi hwide mid found hfound hgt ih =>
    refine ih hlo ?_
    by_contra hle
    rw [List.getElem?_toArray] at hfound
    rcases Nat.lt_or_eq_of_le (Nat.le_of_not_lt hle) with hlt | heq
    · rw [List.getElem?_append_left hlt] at hfound
      exact hgt (hbefore found (List.mem_of_getElem? hfound))
    · rw [heq, List.getElem?_append_right (Nat.le_refl _), Nat.sub_self] at hfound
      cases hfound
      exact hgt hn
  | case3 lo hi hwide mid hnone ih =>
    refine ih hlo ?_
    rw [List.getElem?_toArray, List.getElem?_eq_none_iff, List.length_append,
      List.length_cons] at hnone
    omega
  | case4 lo hi hnarrow =>
    obtain rfl : lo = before.length := by omega
    rw [List.getElem?_toArray, List.getElem?_append_right (Nat.le_refl _), Nat.sub_self]
    rfl

namespace RunReader

/-- A reader with at least one run, and in order: the next run starts behind all of them. -/
structure Ordered (r : RunReader) : Prop where
  runs : InOrder r.runs.toList
  last : ∀ run ∈ r.runs.toList, run.start ≤ r.next
  begun : r.runs ≠ #[]

/-- What has been read on from another reader. -/
structure Continues (r s : RunReader) : Prop where
  ordered : s.Ordered
  next : r.next ≤ s.next
  more : ∃ more, s.runs.toList = r.runs.toList ++ more ∧ ∀ run ∈ more, r.next < run.start

variable {r s : RunReader}

theorem Ordered.feed_cases (h : s.Ordered) (c : Char) :
    (s.feed c).runs = s.runs ∧ (s.feed c).next = s.next ∨
      ∃ run, (s.feed c).runs = s.runs.push run ∧ (s.feed c).next = run.start ∧
        s.next < run.start := by
  unfold feed
  split
  · exact .inl ⟨rfl, rfl⟩
  · refine .inr ⟨_, rfl, rfl, ?_⟩
    have hfull : s.runs.isEmpty = false := by
      rw [← Bool.not_eq_true, Array.isEmpty_iff]
      exact h.begun
    simp only [hfull, Bool.false_eq_true, if_false]
    omega

theorem Continues.refl (h : r.Ordered) : r.Continues r :=
  ⟨h, Nat.le_refl _, [], (List.append_nil _).symm, List.forall_mem_nil _⟩

theorem Continues.feed (h : r.Continues s) (c : Char) : r.Continues (s.feed c) := by
  obtain ⟨hs, hnext, more, heq, hmore⟩ := h
  rcases hs.feed_cases c with ⟨hruns, hsame⟩ | ⟨run, hruns, hstart, hlt⟩
  · refine ⟨⟨?_, ?_, ?_⟩, ?_, more, ?_, hmore⟩
    · rw [hruns]
      exact hs.runs
    · rw [hruns, hsame]
      exact hs.last
    · rw [hruns]
      exact hs.begun
    · omega
    · rw [hruns, heq]
  · have hlast : ∀ old ∈ s.runs.toList, old.start < run.start :=
      fun old hold => Nat.lt_of_le_of_lt (hs.last old hold) hlt
    refine ⟨⟨?_, ?_, ?_⟩, by omega, more ++ [run], ?_, ?_⟩
    · rw [hruns, Array.toList_push, InOrder, List.pairwise_append]
      refine ⟨hs.runs, List.pairwise_singleton _ _, fun old hold new hnew => ?_⟩
      rw [List.mem_singleton.mp hnew]
      exact hlast old hold
    · rw [hruns, hstart, Array.toList_push]
      intro old hold
      rcases List.mem_append.mp hold with hold | hold
      · exact Nat.le_of_lt (hlast old hold)
      · exact Nat.le_of_eq (congrArg _ (List.mem_singleton.mp hold))
    · rw [hruns]
      exact Array.push_ne_empty
    · rw [hruns, Array.toList_push, heq, List.append_assoc]
    · intro new hnew
      rcases List.mem_append.mp hnew with hnew | hnew
      · exact hmore new hnew
      · rw [List.mem_singleton.mp hnew]
        omega

theorem Continues.foldl (h : r.Continues s) (cs : List Char) :
    r.Continues (cs.foldl RunReader.feed s) := by
  induction cs generalizing s with
  | nil => exact h
  | cons c cs ih => exact ih (h.feed c)

theorem Continues.foldl_texts (h : r.Continues s) (texts : List String) :
    r.Continues (texts.foldl (fun r text => text.toList.foldl RunReader.feed r) s) := by
  induction texts generalizing s with
  | nil => exact h
  | cons text texts ih => exact ih (h.foldl text.toList)

/-- What has been read when the run behind the small letters of ASCII begins. -/
def ascii : RunReader := "Z32WR3TR3NORSRMR2I10R2S3R2A26NROULUB26N".toList.foldl feed ⟨#[], 0, 0⟩

theorem ascii_runs : ascii.runs.toList =
    [⟨0, .control⟩, ⟨32, .space⟩, ⟨33, .otherPunctuation⟩, ⟨36, .currency⟩,
      ⟨37, .otherPunctuation⟩, ⟨40, .openBracket⟩, ⟨41, .closeBracket⟩, ⟨42, .otherPunctuation⟩,
      ⟨43, .math⟩, ⟨44, .otherPunctuation⟩, ⟨45, .dash⟩, ⟨46, .otherPunctuation⟩, ⟨48, .decimal⟩,
      ⟨58, .otherPunctuation⟩, ⟨60, .math⟩, ⟨63, .otherPunctuation⟩, ⟨65, .upper⟩,
      ⟨91, .openBracket⟩, ⟨92, .otherPunctuation⟩, ⟨93, .closeBracket⟩, ⟨94, .modifierSymbol⟩,
      ⟨95, .connector⟩, ⟨96, .modifierSymbol⟩, ⟨97, .lower⟩, ⟨123, .openBracket⟩] := rfl

theorem ascii_next : ascii.next = 123 := rfl

theorem ascii_ordered : ascii.Ordered where
  runs := by
    rw [ascii_runs, InOrder]
    decide
  last := by
    rw [ascii_runs, ascii_next]
    decide
  begun := by
    rw [ne_eq, ← Array.toList_eq_nil_iff, ascii_runs]
    exact List.cons_ne_nil _ _

end RunReader

open RunReader (ascii)

/-- The runs of ASCII come first in the table, and all others behind them. -/
theorem exists_categoryTable : ∃ more, categoryTable = (ascii.runs.toList ++ more).toArray ∧
    InOrder (ascii.runs.toList ++ more) ∧ ∀ run ∈ more, ascii.next < run.start := by
  obtain ⟨text, texts, htexts, hfirst⟩ : ∃ text texts, categoryRuns = text :: texts ∧
      text.toList.take 39 = "Z32WR3TR3NORSRMR2I10R2S3R2A26NROULUB26N".toList :=
    ⟨_, _, rfl, by decide +kernel⟩
  have htable : categoryTable =
      (texts.foldl (fun r text => text.toList.foldl RunReader.feed r)
        ((text.toList.drop 39).foldl RunReader.feed ascii)).runs := by
    rw [categoryTable, htexts, List.foldl_cons, ← List.take_append_drop 39 text.toList, hfirst,
      List.foldl_append]
    rfl
  have hread := ((RunReader.Continues.refl RunReader.ascii_ordered).foldl
    (text.toList.drop 39)).foldl_texts texts
  obtain ⟨more, heq, hmore⟩ := hread.more
  refine ⟨more, ?_, ?_, hmore⟩
  · rw [htable, ← heq, Array.toArray_toList]
  · rw [← heq]
    exact hread.ordered.runs

theorem category_eq (run : CategoryRun)
    (hrun : ∃ before after, ascii.runs.toList = before ++ run :: after ∧ run.start ≤ c.toNat ∧
      ∀ r ∈ after, c.toNat < r.start) (hc : c.toNat ≤ 123) :
    category c = run.category := by
  obtain ⟨before, after, hruns, hstart, hafter⟩ := hrun
  obtain ⟨more, htable, horder, hmore⟩ := exists_categoryTable
  rw [hruns, List.append_assoc, List.cons_append] at htable horder
  rw [category, htable]
  refine categoryBetween_eq horder hstart ?_ (Nat.zero_le _) ?_
  · intro r hr
    rcases List.mem_append.mp hr with hr | hr
    · exact hafter r hr
    · have := hmore r hr
      rw [RunReader.ascii_next] at this
      omega
  · simp

theorem isAlpha_iff :
    c.isAlpha ↔ 65 ≤ c.toNat ∧ c.toNat ≤ 90 ∨ 97 ≤ c.toNat ∧ c.toNat ≤ 122 := by
  simp [Char.isAlpha, Char.isUpper, Char.isLower, UInt32.le_iff_toNat_le]

theorem category_upper (hlow : 65 ≤ c.toNat) (hhigh : c.toNat ≤ 90) : category c = .upper := by
  have hafter : ∀ r ∈ ascii.runs.toList.drop 17, 90 < r.start := by
    rw [RunReader.ascii_runs]
    decide
  refine category_eq ⟨65, .upper⟩ ⟨ascii.runs.toList.take 16, _, rfl, hlow, ?_⟩ (by omega)
  intro r hr
  have := hafter r hr
  omega

theorem category_lower (hlow : 97 ≤ c.toNat) (hhigh : c.toNat ≤ 122) : category c = .lower := by
  have hafter : ∀ r ∈ ascii.runs.toList.drop 24, 122 < r.start := by
    rw [RunReader.ascii_runs]
    decide
  refine category_eq ⟨97, .lower⟩ ⟨ascii.runs.toList.take 23, _, rfl, hlow, ?_⟩ (by omega)
  intro r hr
  have := hafter r hr
  omega

end Assay.Text

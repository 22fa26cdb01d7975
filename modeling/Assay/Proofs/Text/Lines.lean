import Assay.Proofs.Text.Joined

namespace Assay.Text

attribute [local irreducible] isBlank

variable {cs v w : List Char} {vs : List (List Char)} {c d : Char}

theorem contains_iff {s needle : String} : contains s needle ↔ needle.toList <:+: s.toList :=
  occursIn_iff

theorem toList_trim (s : String) : (trim s).toList = trimChars s.toList := String.toList_ofList

theorem wordsOf_blank (hc : isBlank c) : wordsOf (c :: cs) = wordsOf cs := by
  rw [wordsOf.eq_def]
  exact if_pos hc

theorem wordsOf_last (hc : isBlank c = false) (hcs : ∀ d ∈ cs.head?, isBlank d) :
    wordsOf (c :: cs) = [c] :: wordsOf cs := by
  rw [wordsOf.eq_def]
  dsimp only
  rw [hc, if_neg Bool.false_ne_true]
  cases cs with
  | nil => rfl
  | cons d ds =>
    have hd := hcs d rfl
    cases hds : wordsOf (d :: ds) with
    | nil => rfl
    | cons v vs => exact if_pos hd

theorem wordsOf_more (hc : isBlank c = false) (hd : isBlank d = false)
    (h : wordsOf (d :: cs) = v :: vs) : wordsOf (c :: d :: cs) = (c :: v) :: vs := by
  rw [wordsOf.eq_def]
  dsimp only
  rw [hc, if_neg Bool.false_ne_true, h]
  dsimp only
  rw [hd, if_neg Bool.false_ne_true]

theorem wordsOf_blanks (b : Blanks) (cs : List Char) : wordsOf (b.1 ++ cs) = wordsOf cs := by
  obtain ⟨b, hb⟩ := b
  induction b with
  | nil => rfl
  | cons c b ih =>
    obtain ⟨hc, hb⟩ := List.forall_mem_cons.mp hb
    exact (wordsOf_blank hc).trans (ih hb)

/-- Texts that show something and have no blanks. -/
abbrev Word := {w : List Char // w ≠ [] ∧ ∀ c ∈ w, isBlank c = false}

theorem wordsOf_word (w : Word) (h : ∀ c ∈ cs.head?, isBlank c) :
    wordsOf (w.1 ++ cs) = w.1 :: wordsOf cs := by
  obtain ⟨w, hne, hw⟩ := w
  induction w with
  | nil => exact absurd rfl hne
  | cons c w ih =>
    obtain ⟨hc, hw⟩ := List.forall_mem_cons.mp hw
    cases w with
    | nil => exact wordsOf_last hc h
    | cons d w => exact wordsOf_more hc (hw d List.mem_cons_self) (ih (List.cons_ne_nil d w) hw)

theorem wordsOf_append_blanks (cs : List Char) (b : Blanks) : wordsOf (cs ++ b.1) = wordsOf cs := by
  have hnone : wordsOf b.1 = [] := by
    have hblanks := wordsOf_blanks b []
    rwa [List.append_nil] at hblanks
  induction cs with
  | nil => exact hnone
  | cons c cs ih =>
    cases cs with
    | nil =>
      have hhead : ∀ d ∈ b.1.head?, isBlank d := fun d hd => b.2 d (List.mem_of_mem_head? hd)
      cases hc : isBlank c with
      | true =>
        have hown : wordsOf [c] = wordsOf [] := wordsOf_blank hc
        rw [hown, List.singleton_append, wordsOf_blank hc, hnone, wordsOf.eq_def]
      | false =>
        have hown : wordsOf [c] = [c] :: wordsOf [] := wordsOf_last hc (by simp)
        rw [hown, List.singleton_append, wordsOf_last hc hhead, hnone, wordsOf.eq_def []]
    | cons d ds =>
      -- What becomes of a character is decided by the next one and the words from there on.
      rw [List.cons_append] at ih
      rw [List.cons_append, List.cons_append, wordsOf.eq_def, wordsOf.eq_def (c :: d :: ds)]
      dsimp only
      rw [ih]
      cases wordsOf (d :: ds) <;> rfl

/-- The first word of a line: only blanks stand before it, and it ends at a blank or with the
line. -/
def FirstWord (line w : List Char) : Prop :=
  ∃ (b : Blanks) (v : Word) (rest : List Char), line = b.1 ++ (v.1 ++ rest) ∧ v.1 = w ∧
    ∀ c ∈ rest.head?, isBlank c

theorem FirstWord.head?_wordsOf (h : FirstWord cs w) : (wordsOf cs).head? = some w := by
  obtain ⟨b, v, rest, rfl, rfl, hrest⟩ := h
  rw [wordsOf_blanks, wordsOf_word v hrest, List.head?_cons]

/-- A line begins with blanks, or it is a word and what is behind it. -/
theorem firstWord_cons (hc : isBlank c = false) (cs : List Char) : ∃ w, FirstWord (c :: cs) w := by
  have hword : ∀ d ∈ c :: cs.takeWhile (!isBlank ·), isBlank d = false := by
    refine List.forall_mem_cons.mpr ⟨hc, fun d hd => ?_⟩
    simpa using List.mem_takeWhile_imp hd
  refine ⟨_, ⟨[], List.forall_mem_nil _⟩, ⟨_, List.cons_ne_nil c _, hword⟩,
    cs.dropWhile (!isBlank ·), ?_, rfl, fun d hd => ?_⟩
  · simp [List.takeWhile_append_dropWhile]
  · have hends := List.head?_dropWhile_not (!isBlank ·) cs
    rw [Option.mem_def.mp hd] at hends
    simpa using hends

theorem FirstWord.cons (hc : isBlank c) (h : FirstWord cs w) : FirstWord (c :: cs) w := by
  obtain ⟨⟨b, hb⟩, v, rest, rfl, hv⟩ := h
  exact ⟨⟨c :: b, List.forall_mem_cons.mpr ⟨hc, hb⟩⟩, v, rest, rfl, hv⟩

theorem exists_firstWord (hcs : ∃ c ∈ cs, isBlank c = false) : ∃ w, FirstWord cs w := by
  induction cs with
  | nil => simp at hcs
  | cons c cs ih =>
    cases hc : isBlank c with
    | false => exact firstWord_cons hc cs
    | true =>
      have hrest : ∃ d ∈ cs, isBlank d = false := by simpa [hc] using hcs
      obtain ⟨w, hw⟩ := ih hrest
      exact ⟨w, hw.cons hc⟩

theorem head?_wordsOf_eq_some : (wordsOf cs).head? = some w ↔ FirstWord cs w := by
  refine ⟨fun h => ?_, FirstWord.head?_wordsOf⟩
  by_cases hshown : ∃ c ∈ cs, isBlank c = false
  · obtain ⟨v, hv⟩ := exists_firstWord hshown
    rw [hv.head?_wordsOf, Option.some.injEq] at h
    exact h ▸ hv
  · have hblanks : ∀ c ∈ cs, isBlank c := by simpa using hshown
    have hnone := wordsOf_blanks ⟨cs, hblanks⟩ []
    rw [List.append_nil] at hnone
    rw [hnone] at h
    cases h

theorem splitOnChar_append (h : c ∉ w) (cs : List Char) :
    splitOnChar c (w ++ c :: cs) = w :: splitOnChar c cs := by
  induction w with
  | nil => simp [splitOnChar]
  | cons d w ih =>
    obtain ⟨hd, hw⟩ := List.ne_and_not_mem_of_not_mem_cons h
    rw [List.cons_append, splitOnChar, if_neg hd.symm, ih hw]

theorem dropReturn_eq_self (h : '\r' ∉ w) : dropReturn w = w := by
  unfold dropReturn
  split
  · next r hr =>
    have hmem : '\r' ∈ w.reverse := by simp [hr]
    exact absurd (List.mem_reverse.mp hmem) h
  · rfl

/-- Lines that are each ended by a line feed are read as these lines. -/
theorem linesOf_ended {rows : List (List Char)} (h : ∀ row ∈ rows, '\n' ∉ row ∧ '\r' ∉ row) :
    linesOf (splitOnChar '\n' (rows.flatMap (· ++ ['\n']))) = rows := by
  induction rows with
  | nil => rfl
  | cons row rows ih =>
    obtain ⟨⟨hend, hreturn⟩, hrows⟩ := List.forall_mem_cons.mp h
    have hrest := ih hrows
    rw [List.flatMap_cons, List.append_assoc, List.singleton_append, splitOnChar_append hend]
    have hne := List.splitOn_ne_nil '\n' (rows.flatMap (· ++ ['\n']))
    rw [← splitOnChar_eq_splitOn] at hne
    obtain ⟨v, vs, hvs⟩ := List.exists_cons_of_ne_nil hne
    rw [hvs] at hrest ⊢
    rw [linesOf, dropReturn_eq_self hreturn, hrest]
    exact nofun

end Assay.Text

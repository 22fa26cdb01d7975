import Assay.Proofs.Shell.Words
import Mathlib.Data.List.Infix

namespace Assay.Shell

variable {as bs cs ds pre w : List Char} {c g : Char}

/-- What stands between the quotes of a quoted text. -/
def escaped (cs : List Char) : List Char := Text.replaceChar '\'' "'\\''".toList cs

def quoted (cs : List Char) : List Char := '\'' :: (escaped cs ++ ['\''])

theorem toList_shellQuote_eq (s : String) : (shellQuote s).toList = quoted s.toList :=
  toList_shellQuote s

theorem escaped_quote (cs : List Char) :
    escaped ('\'' :: cs) = '\'' :: '\\' :: '\'' :: '\'' :: escaped cs := rfl

theorem escaped_cons (h : c ≠ '\'') (cs : List Char) : escaped (c :: cs) = c :: escaped cs := by
  rw [escaped, Text.replaceChar, List.flatMap_cons, if_neg h]
  rfl

/-- A text without the characters that quoting brings in. -/
def Unescaped (w : List Char) : Prop := ∀ c ∈ w, c ≠ '\'' ∧ c ≠ '\\'

theorem unescaped_of_all (h : w.all fun c => c != '\'' && c != '\\') : Unescaped w := by
  intro c hc
  simpa using List.all_eq_true.mp h c hc

theorem exists_of_append_eq (hw : Unescaped w) (h : w ++ ds = escaped cs ++ ['\'']) :
    ∃ bs, cs = w ++ bs ∧ ds = escaped bs ++ ['\''] := by
  induction w generalizing cs with
  | nil => exact ⟨cs, rfl, h⟩
  | cons c w ih =>
    obtain ⟨hc, hw⟩ := List.forall_mem_cons.mp hw
    cases cs with
    | nil => exact absurd (List.cons.inj h).1 hc.1
    | cons d cs =>
      by_cases hd : d = '\''
      · subst hd
        exact absurd (List.cons.inj h).1 hc.1
      · rw [escaped_cons hd] at h
        obtain ⟨rfl, hrest⟩ := List.cons.inj h
        obtain ⟨bs, rfl, hds⟩ := ih hw hrest
        exact ⟨bs, rfl, hds⟩

/-- Where such a text stands in an escaped text, it stood in the text before. -/
theorem exists_of_append_append_eq (hw : Unescaped w) (hne : w ≠ [])
    (h : as ++ (w ++ ds) = escaped cs ++ ['\'']) :
    ∃ us bs, cs = us ++ (w ++ bs) ∧ ds = escaped bs ++ ['\''] := by
  obtain ⟨g, w, rfl⟩ := List.exists_cons_of_ne_nil hne
  obtain ⟨hquote, hslash⟩ := hw g List.mem_cons_self
  induction cs generalizing as with
  | nil =>
    cases as with
    | nil => exact absurd (List.cons.inj h).1 hquote
    | cons a as => simp [escaped, Text.replaceChar] at h
  | cons c cs ih =>
    by_cases hc : c = '\''
    · subst hc
      -- None of the four characters that stand for a quote is the first one of the text.
      rw [escaped_quote] at h
      simp only [List.cons_append] at h
      rcases as with _ | ⟨a, _ | ⟨a, _ | ⟨a, _ | ⟨a, as⟩⟩⟩⟩
      · exact absurd (List.cons.inj h).1 hquote
      · exact absurd (List.cons.inj (List.cons.inj h).2).1 hslash
      · exact absurd (List.cons.inj (List.cons.inj (List.cons.inj h).2).2).1 hquote
      · exact absurd (List.cons.inj (List.cons.inj (List.cons.inj (List.cons.inj h).2).2).2).1
          hquote
      · have hrest := (List.cons.inj (List.cons.inj (List.cons.inj (List.cons.inj h).2).2).2).2
        obtain ⟨us, bs, rfl, hds⟩ := ih hrest
        exact ⟨'\'' :: us, bs, rfl, hds⟩
    · cases as with
      | nil =>
        obtain ⟨bs, hbs, hds⟩ := exists_of_append_eq hw h
        exact ⟨[], bs, hbs, hds⟩
      | cons a as =>
        rw [escaped_cons hc] at h
        obtain ⟨us, bs, rfl, hds⟩ := ih (List.cons.inj h).2
        exact ⟨c :: us, bs, rfl, hds⟩

/-- Such a text is nowhere in an escaped text followed by the text itself: where it is followed
by all of a text, the text has it inside, followed by a shorter one in the same way. -/
theorem not_prefix_escaped (hw : Unescaped w) (hne : w ≠ []) (as bs : List Char) :
    ¬ as ++ (w ++ bs) <+: escaped bs ++ ['\''] := by
  induction hlength : bs.length using Nat.strong_induction_on generalizing as bs with
  | _ n ih =>
    rintro ⟨rest, h⟩
    rw [List.append_assoc, List.append_assoc] at h
    obtain ⟨us, shorter, rfl, hrest⟩ := exists_of_append_append_eq hw hne h
    have hlt : shorter.length < n := by
      have hpos := List.length_pos_iff.mpr hne
      rw [← hlength, List.length_append, List.length_append]
      omega
    exact ih _ hlt us shorter rfl ⟨rest, hrest⟩

theorem infix_of_infix_append (h : g :: ds <:+: as ++ bs) (hg : g ∉ as) : g :: ds <:+: bs := by
  induction as with
  | nil => exact h
  | cons a as ih =>
    obtain ⟨ha, has⟩ := List.ne_and_not_mem_of_not_mem_cons hg
    rcases List.infix_cons_iff.mp h with hstart | hrest
    · exact absurd (List.cons_prefix_cons.mp hstart).1 ha
    · exact ih hrest has

/-- A marker that begins with a character it has only once is followed by a text in a line where
it stands before the quoted text just if the quoted text begins with the text. -/
theorem infix_quoted_iff (cs : List Char) (hw : Unescaped (g :: w)) (hg : g ∉ w)
    (hpre : ¬ g :: w <:+: pre) :
    g :: w ++ cs <:+: pre ++ (g :: w ++ quoted cs) ↔ cs <+: quoted cs := by
  have hnone : ¬ g :: w ++ cs <:+: quoted cs := by
    intro hin
    rcases List.infix_cons_iff.mp hin with hstart | ⟨as, rest, h⟩
    · exact (hw g List.mem_cons_self).1 (List.cons_prefix_cons.mp hstart).1
    · exact not_prefix_escaped hw (List.cons_ne_nil g w) as cs ⟨rest, h⟩
  constructor
  · intro hin
    rcases List.infix_append_iff.mp hin with hleft | hright | ⟨l, r, hlr, hl, hr⟩
    · exact absurd ((List.prefix_append _ _).isInfix.trans hleft) hpre
    · rcases List.infix_cons_iff.mp hright with hstart | hrest
      · exact (List.prefix_append_right_inj _).mp hstart
      · exact absurd (infix_of_infix_append hrest hg) hnone
    · -- The marker is cut by the place where `pre` ends, and its second part begins like it.
      rcases List.append_eq_append_iff.mp hlr with ⟨as, rfl, -⟩ | ⟨bs, hbs, rfl⟩
      · exact absurd ((List.prefix_append _ _).isInfix.trans hl.isInfix) hpre
      · cases l with
        | nil =>
          rw [List.nil_append] at hbs
          rw [← hbs] at hr
          exact (List.prefix_append_right_inj _).mp hr
        | cons a l =>
          cases bs with
          | nil =>
            rw [List.append_nil] at hbs
            exact absurd (hbs ▸ hl.isInfix) hpre
          | cons b bs =>
            obtain ⟨rfl, rfl⟩ := List.cons.inj hbs
            obtain ⟨rfl, -⟩ := List.cons_prefix_cons.mp hr
            simp at hg
  · intro hprefix
    have hmarked := (List.prefix_append_right_inj (g :: w)).mpr hprefix
    exact hmarked.isInfix.trans (List.suffix_append pre _).isInfix

/-- A text that its quoted form begins with begins with a quote, if it is not empty. -/
theorem head_of_prefix_quoted (h : cs <+: quoted cs) (hc : c ∈ cs.head?) : c = '\'' := by
  cases cs with
  | nil => cases hc
  | cons d cs =>
    cases hc
    exact (List.cons_prefix_cons.mp h).1

end Assay.Shell

import Assay.Proofs.Number.Grammar
import Assay.Proofs.Text.Joined
import Assay.Proofs.Unit.Written
import Assay.Unit.Duration

namespace Assay

open Double (one bound)
open Text (Blanks isBlank trimChars)

attribute [local irreducible] one bound

/-- The units a duration is written in. A number without a mark counts milliseconds. -/
inductive TimeUnit
  | unmarked
  | millis
  | seconds
  | minutes
  | hours

namespace TimeUnit

def mark : TimeUnit → List Char
  | unmarked => []
  | millis => ['m', 's']
  | seconds => ['s']
  | minutes => ['m']
  | hours => ['h']

/-- How many milliseconds a unit has. -/
def scale : TimeUnit → Nat
  | unmarked | millis => 1
  | seconds => 1000
  | minutes => 60000
  | hours => 3600000

variable {u : TimeUnit} {cs : List Char}

theorem scale_pos (u : TimeUnit) : 0 < u.scale := by cases u <;> decide

theorem scale_lt (u : TimeUnit) : u.scale < 2 ^ 53 := by cases u <;> decide

/-- Of the marks that a text ends in, the longest is that of its unit. -/
def Longest (u : TimeUnit) (cs : List Char) : Prop :=
  ∀ v : TimeUnit, v.mark <:+ cs ++ u.mark → v.mark.length ≤ u.mark.length

theorem Longest.not_suffix (h : u.Longest cs) {v : TimeUnit} (hlt : u.mark.length < v.mark.length) :
    ¬ v.mark <:+ cs ++ u.mark := fun hv => absurd (h v hv) (Nat.not_le.mpr hlt)

theorem mem_mark {v : TimeUnit} {c : Char} (h : c ∈ v.mark) : c ∈ ['m', 's', 'h'] := by
  have hsubset : v.mark ⊆ ['m', 's', 'h'] := by cases v <;> simp [mark]
  exact hsubset h

/-- No mark reaches into a text that has none of the letters of marks. -/
theorem longest_of_not_mem (h : ∀ c ∈ cs, c ∉ ['m', 's', 'h']) (u : TimeUnit) : u.Longest cs := by
  intro v hv
  rcases List.suffix_or_suffix_of_suffix hv (List.suffix_append cs u.mark) with hshort | hlong
  · exact hshort.length_le
  · obtain ⟨l, hl⟩ := hlong
    rw [← hl, List.suffix_append_self_iff] at hv
    cases l with
    | nil => rw [← hl, List.nil_append]
    | cons c l =>
      have hmark : c ∈ v.mark := by rw [← hl]; exact List.mem_cons_self
      exact absurd (mem_mark hmark) (h c (hv.subset List.mem_cons_self))

/-- Every text ends in the mark of one unit, if only in the empty one. -/
theorem exists_longest (cs : List Char) : ∃ w u, cs = w ++ mark u ∧ u.Longest w := by
  have hend {u : TimeUnit} (hu : u.mark <:+ cs)
      (h : ∀ v : TimeUnit, v.mark <:+ cs → v.mark.length ≤ u.mark.length) :
      ∃ w u, cs = w ++ mark u ∧ u.Longest w := by
    obtain ⟨w, rfl⟩ := hu
    exact ⟨w, u, rfl, h⟩
  by_cases hmillis : millis.mark <:+ cs
  · exact hend hmillis fun v _ => by cases v <;> decide
  · by_cases hone : ∃ u : TimeUnit, u.mark <:+ cs ∧ u.mark.length = 1
    · obtain ⟨u, hu, hlength⟩ := hone
      refine hend hu fun v hv => ?_
      rw [hlength]
      cases v with
      | millis => exact absurd hv hmillis
      | _ => decide
    · refine hend (u := .unmarked) List.nil_suffix fun v hv => ?_
      cases v with
      | unmarked => exact Nat.le_refl _
      | millis => exact absurd hv hmillis
      | _ => exact absurd ⟨_, hv, rfl⟩ hone

end TimeUnit

namespace Duration

variable {u : TimeUnit} {number cs : List Char} {text : String} {d : Duration} {plus : Bool}
  {zeros n : Nat}

theorem splitUnit_eq (h : u.Longest cs) : splitUnit (cs ++ u.mark) = (cs, u.scale) := by
  by_cases hu : u = .millis
  · rw [hu]
    exact splitUnit_millis cs
  · have hmillis : ['m', 's'].isSuffixOf (cs ++ u.mark) = false := by
      rw [Bool.eq_false_iff, ne_eq, List.isSuffixOf_iff_suffix]
      refine h.not_suffix (v := .millis) ?_
      cases u with
      | millis => exact absurd rfl hu
      | _ => decide
    unfold splitUnit Text.dropSuffix
    rw [hmillis]
    cases u with
    | millis => exact absurd rfl hu
    | seconds | minutes | hours => simp [TimeUnit.mark, TimeUnit.scale]
    | unmarked =>
      have hlast {v : TimeUnit} {c : Char} {r : List Char} (hv : v.mark = [c])
          (hr : cs.reverse = c :: r) : False := by
        refine h.not_suffix (v := v) ?_ ?_
        · rw [hv]
          exact Nat.zero_lt_one
        · rw [hv, List.reverse_eq_iff.mp hr]
          exact ⟨r.reverse, by simp [TimeUnit.mark]⟩
      simp only [TimeUnit.mark, List.append_nil, Bool.false_eq_true, if_false]
      split
      next hr => exact (hlast (v := .seconds) rfl hr).elim
      next hr => exact (hlast (v := .minutes) rfl hr).elim
      next hr => exact (hlast (v := .hours) rfl hr).elim
      next => rfl

/-- The number of a text stands in front of the mark of its unit, blanks around it apart. -/
def Spelled (text : String) (number : List Char) (u : TimeUnit) : Prop :=
  ∃ w, trimChars text.toList = w ++ u.mark ∧ u.Longest w ∧ trimChars w = number

theorem not_mem_marks {c : Char} (h : c.isDigit ∨ c = '+') : c ∉ ['m', 's', 'h'] := by
  simp only [List.mem_cons, List.not_mem_nil, or_false]
  rintro (rfl | rfl | rfl) <;> exact absurd h (by decide)

theorem isBlank_of_mem_marks {c : Char} (h : c ∈ ['m', 's', 'h']) : isBlank c = false := by
  simp only [List.mem_cons, List.not_mem_nil, or_false] at h
  rcases h with rfl | rfl | rfl <;> rfl

theorem trimChars_mark : trimChars u.mark = u.mark :=
  Text.trimChars_eq_self fun _ hc => isBlank_of_mem_marks (TimeUnit.mem_mark hc)

theorem exists_spelled (text : String) : ∃ number u, Spelled text number u := by
  obtain ⟨w, u, hcut, hlongest⟩ := TimeUnit.exists_longest (trimChars text.toList)
  exact ⟨_, u, w, hcut, hlongest, rfl⟩

theorem parse?_of_spelled (h : Spelled text number u) :
    parse? text = (Double.read? number).bind fun x =>
      if x.isFinite ∧ ¬ x.less .zero then some (ofMillis (x.mul (.ofNat u.scale))) else none := by
  obtain ⟨w, hcut, hlongest, rfl⟩ := h
  unfold parse?
  rw [hcut, splitUnit_eq hlongest]
  rfl

/-- The digits of a number, perhaps with zeros or a plus sign before them. -/
def digits (plus : Bool) (zeros n : Nat) : List Char :=
  (if plus then ['+'] else []) ++ (List.replicate zeros '0' ++ Nat.toDigits 10 n)

theorem mem_digits {c : Char} (h : c ∈ digits plus zeros n) : c.isDigit ∨ c = '+' := by
  rcases List.mem_append.mp h with hsign | hdigit
  · cases plus with
    | true => exact .inr (List.mem_singleton.mp hsign)
    | false => cases hsign
  · exact .inl ((allDigits_zeros zeros).append (allDigits_toDigits n) c hdigit)

theorem isBlank_of_mem_digits : ∀ c ∈ digits plus zeros n, isBlank c = false := by
  intro c hc
  rcases mem_digits hc with hdigit | rfl
  · exact Text.isBlank_digit hdigit
  · rfl

theorem digits_eq_cons (plus : Bool) (zeros n : Nat) :
    ∃ c cs, digits plus zeros n = c :: cs := by
  apply List.exists_cons_of_ne_nil
  simp [digits]

theorem read?_digits (h : n < 2 ^ 64) :
    Double.read? (digits plus zeros n) = some (.ofNat n) := by
  have hsign : (if plus then ['+'] else []) = [] ∨ (if plus then ['+'] else []) = ['+'] := by
    cases plus <;> simp
  have hread := Double.read?_positive ((allDigits_zeros zeros).append (allDigits_toDigits n))
    (by simp) hsign
  rwa [digitsFrom_append, digitsFrom_zeros, Nat.zero_mul, digitsFrom_toDigits,
    Double.ofDecimal_whole h] at hread

/-- Digits and the mark of a unit, with blanks around them and between them. -/
def spelling (before : Blanks) (number : List Char) (gap : Blanks) (u : TimeUnit)
    (after : Blanks) : String :=
  .ofList (before.1 ++ (number ++ (gap.1 ++ (u.mark ++ after.1))))

theorem spelled_digits (before gap after : Blanks) (u : TimeUnit) :
    Spelled (spelling before (digits plus zeros n) gap u after) (digits plus zeros n) u := by
  have hnonblank : ∀ c ∈ digits plus zeros n, isBlank c = false := isBlank_of_mem_digits
  have htrim := Text.trimChars_eq_self hnonblank
  have hgap := Text.trimChars_between ⟨[], List.forall_mem_nil _⟩ (digits plus zeros n) gap
  rw [List.nil_append, htrim] at hgap
  obtain ⟨c, cs, heq⟩ := digits_eq_cons plus zeros n
  have hc : isBlank c = false := hnonblank c (by rw [heq]; exact List.mem_cons_self)
  have hlongest (w : Blanks) : u.Longest (digits plus zeros n ++ w.1) := by
    apply TimeUnit.longest_of_not_mem
    intro d hd hmark
    rcases List.mem_append.mp hd with hd | hd
    · exact not_mem_marks (mem_digits hd) hmark
    · exact Bool.false_ne_true ((isBlank_of_mem_marks hmark).symm.trans (w.2 d hd))
  unfold Spelled spelling
  rw [String.toList_ofList]
  by_cases hmark : u.mark = []
  · refine ⟨digits plus zeros n, ?_, ?_, htrim⟩
    · have hblanks : ∀ d ∈ gap.1 ++ after.1, isBlank d :=
        List.forall_mem_append.mpr ⟨gap.2, after.2⟩
      have hbetween := Text.trimChars_between before (digits plus zeros n) ⟨_, hblanks⟩
      rw [hmark, List.append_nil, List.nil_append, hbetween, htrim]
    · simpa using hlongest ⟨[], List.forall_mem_nil _⟩
  · refine ⟨digits plus zeros n ++ gap.1, ?_, hlongest gap, hgap⟩
    have hbehind := Text.trimChars_behind (cs ++ gap.1) hc hmark trimChars_mark
    have hbetween := Text.trimChars_between before (digits plus zeros n ++ (gap.1 ++ u.mark)) after
    rw [heq] at hbetween ⊢
    simp only [List.append_assoc, List.cons_append] at hbehind hbetween ⊢
    rw [hbetween, hbehind]

/-- What no duration is read from: nothing, a negative whole number, and whatever has a letter, or
another character that is no digit, no sign and no point, in another place than that of an exponent
mark. -/
inductive Unreadable : List Char → Prop
  | empty : Unreadable []
  | negative {ds : List Char} (hds : AllDigits ds) (hne : digitsFrom 0 ds ≠ 0) :
    Unreadable ('-' :: ds)
  | letter {pre post : List Char} {c : Char} (hc : isNumeralChar c = false)
    (hmark : ¬ IsExponentMark pre c post) : Unreadable (pre ++ c :: post)

theorem Unreadable.less_zero (h : Unreadable number) {x : Double}
    (hx : Double.read? number = some x) (hfinite : x.isFinite) : x.less .zero := by
  cases h with
  | empty =>
    rw [read?_nil] at hx
    cases hx
  | negative hds hne =>
    have hnil {ds : List Char} (hne : digitsFrom 0 ds ≠ 0) : ds ≠ [] := by
      rintro rfl
      exact hne rfl
    rw [Double.read?_negative hds (hnil hne), Option.some.injEq] at hx
    subst hx
    refine (Double.ofDecimal_negative hne).resolve_left fun hinfinite => ?_
    rw [hfinite] at hinfinite
    cases hinfinite
  | letter hc hmark => exact absurd (isExponentMark_of_read? hx hfinite hc) hmark

theorem parse?_of_unreadable (h : Spelled text number u) (hnumber : Unreadable number) :
    parse? text = none := by
  rw [parse?_of_spelled h, Option.bind_eq_none_iff]
  intro x hx
  rw [if_neg]
  rintro ⟨hfinite, hless⟩
  exact hless (hnumber.less_zero hx hfinite)

theorem parse?_spelling (before gap after : Blanks) (h : n * u.scale < 2 ^ 53) :
    parse? (spelling before (digits plus zeros n) gap u after) = some ⟨n * u.scale⟩ := by
  have hn : n < 2 ^ 53 := (Nat.le_mul_of_pos_right n u.scale_pos).trans_lt h
  have hread : Double.read? (digits plus zeros n) = some (.ofNat n) :=
    read?_digits (hn.trans (by decide))
  have hfinite : (Double.ofNat n).isFinite ∧ ¬ (Double.ofNat n).less .zero := by
    rw [Double.ofNat_exact hn.le]
    exact ⟨rfl, by rw [Double.not_less_zero]; exact Bool.false_ne_true⟩
  rw [parse?_of_spelled (spelled_digits before gap after u), hread, Option.bind_some,
    if_pos hfinite, Double.mul_ofNat h hn u.scale_lt, ofMillis,
    Double.toNatClamped_whole (h.le.trans (by decide))]

/-- However a whole number and its unit are spelled, with blanks around and between them, zeros
before the digits or a plus sign, exactly that many milliseconds are read, as long as they are fewer
than `2 ^ 53`. Every text has a number in front of its unit, and where no duration can be read from
that number the whole text is refused and quoted. -/
theorem spellings_read :
    (∀ (u : TimeUnit) (n zeros : Nat) (plus : Bool) (before gap after : Blanks),
      n * u.scale < 2 ^ 53 →
      parse? (spelling before (digits plus zeros n) gap u after) = some ⟨n * u.scale⟩ ∧
      ∀ o, decode o (.string (spelling before (digits plus zeros n) gap u after)) =
        .ok ⟨n * u.scale⟩) ∧
    (∀ text, ∃ number u, Spelled text number u) ∧
    ∀ text number u, Spelled text number u → Unreadable number →
      parse? text = none ∧
      ∀ o, ∃ fault, decode o (.string text) = .error fault ∧
        fault.message o = "Invalid duration '" ++ text ++
          "'. Use milliseconds or a value like '500ms', '5s', '1m'" := by
  refine ⟨?_, exists_spelled, ?_⟩
  · intro u n zeros plus before gap after h
    have hparse : parse? (spelling before (digits plus zeros n) gap u after) =
        some ⟨n * u.scale⟩ := parse?_spelling before gap after h
    exact ⟨hparse, decode_string_of_some hparse⟩
  · intro text number u hspelled hnumber
    have hparse := parse?_of_unreadable hspelled hnumber
    exact ⟨hparse, fun o => ⟨.duration text, decode_string_of_none hparse o, rfl⟩⟩

/-- Ninety minutes, a negative number, and a letter that only looks like an exponent mark. -/
theorem spellings_read_minutes :
    (90 * TimeUnit.minutes.scale < 2 ^ 53 ∧ parse? " +0090\tm\n" = some ⟨5400000⟩) ∧
    (Spelled " -05 s" ['-', '0', '5'] .seconds ∧ Unreadable ['-', '0', '5'] ∧
      parse? " -05 s" = none) ∧
    (Spelled "1e5em" ['1', 'e', '5', 'e'] .minutes ∧ Unreadable ['1', 'e', '5', 'e'] ∧
      parse? "1e5em" = none) := by
  have hblank {c : Char} (hc : isBlank c) : ∀ d ∈ [c], isBlank d := by simpa using hc
  have hscale : 90 * TimeUnit.minutes.scale < 2 ^ 53 := by decide
  have hminutes := (spellings_read.1 .minutes 90 2 true ⟨[' '], hblank rfl⟩ ⟨['\t'], hblank rfl⟩
    ⟨['\n'], hblank rfl⟩ hscale).1
  have hnegative : Spelled " -05 s" ['-', '0', '5'] .seconds :=
    ⟨['-', '0', '5', ' '], by decide +kernel, fun v => by cases v <;> decide, by decide +kernel⟩
  have hdigits : AllDigits ['0', '5'] :=
    List.forall_mem_cons.mpr ⟨rfl, List.forall_mem_singleton.mpr rfl⟩
  have hfive : Unreadable ['-', '0', '5'] := .negative hdigits (by decide)
  have hletter : Spelled "1e5em" ['1', 'e', '5', 'e'] .minutes :=
    ⟨['1', 'e', '5', 'e'], by decide +kernel, fun v => by cases v <;> decide, by decide +kernel⟩
  have hmark : Unreadable ['1', 'e', '5', 'e'] := by
    have hcut : ['1', 'e', '5', 'e'] = ['1', 'e', '5'] ++ 'e' :: [] := rfl
    rw [hcut]
    refine .letter (isNumeralChar_of_isAlpha rfl) fun h => ?_
    have hchars := h.significand.chars 'e' (by decide)
    cases hchars
  exact ⟨⟨hscale, hminutes⟩, ⟨hnegative, hfive, (spellings_read.2.2 _ _ _ hnegative hfive).1⟩,
    ⟨hletter, hmark, (spellings_read.2.2 _ _ _ hletter hmark).1⟩⟩

end Duration

end Assay

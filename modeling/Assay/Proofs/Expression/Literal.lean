import Assay.Proofs.Expression.Leaf
import Assay.Proofs.Text.Category
import Assay.Proofs.Unit.Written

namespace Assay.Expression

open Text (Blanks isBlank occursIn trimChars)

variable {r : Response} {q d : Char} {cs ds right : List Char} {v : Value} {f s w : String}

/-- The two marks a literal can be put between. -/
def IsQuote (q : Char) : Prop := q = '\'' ∨ q = '"'

instance : DecidablePred IsQuote := fun q => inferInstanceAs (Decidable (q = '\'' ∨ q = '"'))

theorem IsQuote.isBlank (h : IsQuote q) : isBlank q = false := by
  rcases h with rfl | rfl <;> decide

theorem IsQuote.ne (hq : IsQuote q) (hd : ¬ IsQuote d) : q ≠ d := by
  rintro rfl
  exact hd hq

theorem IsQuote.not_mem (hq : IsQuote q) (hd : ¬ IsQuote d) : d ∉ [q] := by
  rw [List.mem_singleton]
  exact (hq.ne hd).symm

theorem ofList_quote_ne (hq : IsQuote q) (hw : w.toList = d :: ds) (hd : ¬ IsQuote d) :
    String.ofList (q :: cs) ≠ w := by
  rintro rfl
  rw [String.toList_ofList] at hw
  exact hq.ne hd (List.cons.inj hw).1

/-- What begins with no digit, sign or point and with no name of a number is no numeral. -/
theorem numeral?_head (hdigit : d.isDigit = false) (hmark : d ∉ ['+', '-', '.'])
    (hname : d.toLower ∉ ['i', 'n']) (cs : List Char) : numeral? (d :: cs) = none := by
  simp only [List.mem_cons, List.not_mem_nil, or_false, not_or] at hmark hname
  obtain ⟨hplus, hminus, hpoint⟩ := hmark
  have hunread : readNat? (d :: cs) = none := by simp [readNat?, hdigit]
  have hint : readInt64? (d :: cs) = none := by
    simp [readInt64?, readUnsigned?, hunread, hminus, hplus]
  have hmagnitude : readMagnitude? false (d :: cs) = none := by
    simp [readMagnitude?, hdigit, hpoint]
  have hword {w : String} {e : Char} {ds : List Char} (hw : w.toList = e :: ds)
      (he : e = 'i' ∨ e = 'n') : (String.ofList ((d :: cs).map Char.toLower) == w) = false := by
    apply beq_eq_false_iff_ne.mpr
    rintro rfl
    rw [String.toList_ofList, List.map_cons] at hw
    have hhead := (List.cons.inj hw).1
    rcases he with rfl | rfl
    · exact hname.1 hhead
    · exact hname.2 hhead
  have hdouble : Double.read? (d :: cs) = none := by
    have hinf := hword (w := "inf") rfl (.inl rfl)
    have hinfinity := hword (w := "infinity") rfl (.inl rfl)
    have hnan := hword (w := "nan") rfl (.inr rfl)
    unfold Double.read?
    dsimp only
    split
    next heq => exact absurd (List.cons.inj heq).1 hminus
    next heq => exact absurd (List.cons.inj heq).1 hplus
    next =>
      dsimp only
      rw [hinf, hinfinity, hnan, hmagnitude]
      rfl
  simp only [numeral?, hint, hdouble]
  rfl

theorem numeral?_quote (hq : IsQuote q) : numeral? (q :: cs) = none := by
  rcases hq with rfl | rfl <;> exact numeral?_head (by decide) (by decide) (by decide) cs

theorem segments_quote (cs : List Char) (hq : IsQuote q) :
    ∃ ds ss, Value.segments (String.ofList (q :: cs)) = String.ofList (q :: ds) :: ss := by
  have hpoint : q ≠ '.' := hq.ne (by decide)
  rw [Value.segments, String.toList_ofList, Text.splitOnChar, if_neg hpoint]
  cases Text.splitOnChar '.' cs with
  | nil => exact ⟨[], [], rfl⟩
  | cons c ss => exact ⟨c, ss.map String.ofList, rfl⟩

theorem pathValue_quote (hq : IsQuote q) (h : trimChars (q :: cs) = q :: cs) :
    pathValue r (q :: cs) = none := by
  obtain ⟨ds, ss, hsegments⟩ := segments_quote cs hq
  unfold pathValue
  rw [h]
  dsimp only
  rw [hsegments]
  split
  next heq => exact absurd (List.cons.inj heq).1 (ofList_quote_ne hq rfl (by decide))
  next heq => exact absurd (List.cons.inj heq).1 (ofList_quote_ne hq rfl (by decide))
  next heq => exact absurd (List.cons.inj heq).1 (ofList_quote_ne hq rfl (by decide))
  next => rfl

theorem operandValue_quote (hq : IsQuote q) (h : trimChars (q :: cs) = q :: cs) :
    operandValue r (q :: cs) = (quoted? (q :: cs)).map fun s => .string (String.ofList s) := by
  unfold operandValue
  rw [h]
  dsimp only
  split
  next heq => exact absurd heq (ofList_quote_ne hq rfl (by decide))
  next heq => exact absurd heq (ofList_quote_ne hq rfl (by decide))
  next heq => exact absurd heq (ofList_quote_ne hq rfl (by decide))
  next =>
    cases quoted? (q :: cs) with
    | some s => rfl
    | none =>
      dsimp only
      rw [numeral?_quote hq, pathValue_quote hq h]
      rfl

theorem quoted?_enclosed (hq : IsQuote q) : quoted? (q :: (cs ++ [q])) = some cs := by
  rw [quoted?, if_pos ⟨hq.symm, List.getLast?_concat⟩, List.dropLast_concat]

theorem quoted?_open (h : q ∉ cs) : quoted? (q :: cs) = none := by
  rw [quoted?, if_neg]
  rintro ⟨-, hlast⟩
  exact h (List.mem_of_getLast? hlast)

/-- The characters that connectives are written with. -/
def connectiveChars : List Char := ['&', '|']

/-- A path below the body of which no character is a blank or belongs to a connective or a
relation. -/
structure IsFieldPath (f : String) : Prop where
  nonempty : f ≠ ""
  chars : ∀ c ∈ f.toList, isBlank c = false ∧ c ∉ connectiveChars ++ relationChars
  notLength : (Value.segments f).getLast? ≠ some "length"

theorem fieldChars_of_isAlpha {c : Char} (h : c.isAlpha) :
    isBlank c = false ∧ c ∉ connectiveChars ++ relationChars := by
  refine ⟨?_, ?_⟩
  · have hrange := Text.isAlpha_iff.mp h
    simp [isBlank]
    omega
  · have hmarks : ∀ d ∈ connectiveChars ++ relationChars, d.isAlpha = false := by
      simp [connectiveChars, relationChars]
    intro hmem
    rw [hmarks c hmem] at h
    cases h

theorem IsFieldPath.of_isAlpha (hne : f ≠ "") (h : ∀ c ∈ f.toList, c.isAlpha ∨ c = '.')
    (hlast : (Value.segments f).getLast? ≠ some "length") : IsFieldPath f := by
  refine ⟨hne, fun c hc => ?_, hlast⟩
  rcases h c hc with halpha | rfl
  · exact fieldChars_of_isAlpha halpha
  · decide

theorem bodyPath_eq_descend? {segments : List String} (h : segments.getLast? ≠ some "length") :
    bodyPath v segments = v.descend? segments := by
  induction segments generalizing v with
  | nil => rfl
  | cons s ss ih =>
    cases ss with
    | nil =>
      have hs : s ≠ "length" := by simpa using h
      simp [bodyPath, Value.descend?, hs]
    | cons t ts =>
      rw [bodyPath, Value.descend?]
      · congr 1
        funext w
        exact ih h
      · simp

/-- How a field of the body is written. -/
def field (f : String) : List Char := ("body." ++ f).toList

theorem field_eq : field f = "body.".toList ++ f.toList := String.toList_append

theorem segments_field : Value.segments (String.ofList (field f)) = "body" :: Value.segments f := by
  have hcut (cs : List Char) : Text.splitOnChar '.' ("body.".toList ++ cs) =
      "body".toList :: Text.splitOnChar '.' cs := rfl
  simp only [Value.segments, String.toList_ofList, field_eq, hcut, List.map_cons]
  rfl

theorem IsFieldPath.mem_field {c : Char} (h : IsFieldPath f) (hc : c ∈ field f) :
    isBlank c = false ∧ c ∉ connectiveChars ++ relationChars := by
  have hbody : ∀ c ∈ "body.".toList, isBlank c = false ∧ c ∉ connectiveChars ++ relationChars := by
    simp [connectiveChars, relationChars, isBlank]
  rw [field_eq] at hc
  rcases List.mem_append.mp hc with hc | hc
  · exact hbody c hc
  · exact h.chars c hc

theorem IsFieldPath.isOperand (h : IsFieldPath f) : IsOperand (field f) := by
  have hnot {c : Char} (hc : c ∈ connectiveChars ++ relationChars) : c ∉ field f :=
    fun hmem => (h.mem_field hmem).2 hc
  refine ⟨by simp [field_eq], Text.trimChars_eq_self fun c hc => (h.mem_field hc).1, ?_, ?_⟩
  · intro hline
    exact absurd (h.mem_field hline).1 (by decide)
  · rw [isLeaf_iff]
    exact ⟨fun hin => hnot (by decide) (hin.subset List.mem_cons_self),
      fun hin => hnot (by decide) (hin.subset List.mem_cons_self)⟩

theorem pathValue_field (hne : f ≠ "") (htrimmed : trimChars (field f) = field f)
    (hlast : (Value.segments f).getLast? ≠ some "length") :
    pathValue r (field f) = r.body.walk? f := by
  rw [Expression.pathValue, htrimmed, segments_field, Value.walk?, if_neg hne]
  exact bodyPath_eq_descend? hlast

theorem IsFieldPath.pathValue (h : IsFieldPath f) : pathValue r (field f) = r.body.walk? f :=
  pathValue_field h.nonempty h.isOperand.trimmed h.notLength

/-- The value is the text itself, or the number that the text spells. -/
def EqualsLiteral (v : Option Value) (s : String) : Prop :=
  v = some (.string s) ∨
    ∃ n x, v = some (.number n) ∧ readDouble? s = some x ∧ n.toDouble.equals x

theorem looselyEqual_string {v : Option Value} :
    looselyEqual v (some (.string s)) ↔ EqualsLiteral v s := by
  cases v with
  | none => simp [looselyEqual, EqualsLiteral]
  | some v =>
    cases v with
    | number n => simp [looselyEqual, EqualsLiteral, Option.any_eq_true]
    | _ => simp [looselyEqual, EqualsLiteral, Value.equals]

/-- An equation between a field of the body and an operand, one blank around the relation. -/
def equation (f : String) (right : List Char) : List Char := field f ++ (" == ".toList ++ right)

/-- The equation between a field and a literal in quotation marks. -/
def literalText (f s : String) (q : Char) : String :=
  "body." ++ f ++ " == " ++ String.ofList (q :: (s.toList ++ [q]))

theorem toList_literalText :
    (literalText f s q).toList = equation f (q :: (s.toList ++ [q])) := by
  simp only [literalText, equation, field, String.toList_append, String.toList_ofList,
    List.append_assoc]

/-- An equation is one comparison, between the value of the field and that of the operand. -/
theorem IsFieldPath.equation (h : IsFieldPath f) (hright : IsOperand right) (w : Blanks) :
    IsLeaf (equation f (right ++ w.1)) ∧
      (leafFailure r (equation f (right ++ w.1)) = none ↔
        looselyEqual (r.body.walk? f) (operandValue r right)) := by
  let l : Leaf := ⟨field f, .equal, right⟩
  let blank : Blanks := ⟨[' '], List.all_eq_true.mp rfl⟩
  have hprint : Expression.equation f (right ++ w.1) =
      l.print ⟨[], List.forall_mem_nil _⟩ blank blank w := by
    simp [Expression.equation, Leaf.print, Relation.symbol, l, blank]
  have hplain : IsPlain (field f) := fun c hc hmem =>
    (h.mem_field hc).2 (List.mem_append_right _ hmem)
  have hl : l.Printable := ⟨h.isOperand, hplain, hright⟩
  have hparted : l.Parted blank := by simp [Leaf.Parted, l]
  have hread : leaf? (Expression.equation f (right ++ w.1)) = some l := by
    rw [hprint]
    exact leaf?_print _ _ _ hl hparted
  refine ⟨?_, ?_⟩
  · rw [hprint]
    exact isLeaf_print hl
  · rw [leafFailure_eq_none r hread, h.pathValue]
    rfl

theorem IsQuote.isOperand (hq : IsQuote q) (htrimmed : trimChars (q :: cs) = q :: cs)
    (hline : '\n' ∉ cs) (hleaf : IsLeaf cs) : IsOperand (q :: cs) := by
  refine ⟨nofun, htrimmed, List.not_mem_cons_of_ne_of_not_mem (hq.ne (by decide)).symm hline, ?_⟩
  rw [isLeaf_iff] at hleaf ⊢
  rwa [Text.pair_infix_cons (hq.ne (by decide)), Text.pair_infix_cons (hq.ne (by decide))]

theorem equation_enclosed (hf : IsFieldPath f) (hq : IsQuote q) (hline : '\n' ∉ s.toList)
    (hleaf : IsLeaf s.toList) :
    failure r (literalText f s q) = none ↔ EqualsLiteral (r.body.walk? f) s := by
  have htrimmed := Text.trimChars_enclosed s.toList hq.isBlank
  have hright : IsOperand (q :: (s.toList ++ [q])) := by
    apply hq.isOperand htrimmed
    · exact List.not_mem_append hline (hq.not_mem (by decide))
    · rw [isLeaf_iff] at hleaf ⊢
      rwa [Text.pair_infix_append_right (hq.not_mem (by decide)),
        Text.pair_infix_append_right (hq.not_mem (by decide))]
  obtain ⟨hwhole, hcompare⟩ := hf.equation (r := r) hright ⟨[], List.forall_mem_nil _⟩
  rw [List.append_nil, ← toList_literalText] at hwhole hcompare
  rw [failure, hwhole.failureBy, hcompare, operandValue_quote hq htrimmed, quoted?_enclosed hq,
    Option.map_some, String.ofList_toList, looselyEqual_string]

theorem equation_open (hf : IsFieldPath f) (hq : IsQuote q) (hclose : q ∉ cs) (hline : '\n' ∉ cs)
    (hleaf : IsLeaf cs) :
    IsLeaf (equation f (q :: cs)) ∧
      (leafFailure r (equation f (q :: cs)) = none ↔ r.body.walk? f = none) := by
  obtain ⟨ds, w, rfl, htrimmed⟩ := Text.exists_trimmed_cons cs hq.isBlank
  have hds {c : Char} (hc : c ∉ ds ++ w.1) : c ∉ ds := fun hmem => hc (List.mem_append_left _ hmem)
  have hright : IsOperand (q :: ds) := by
    apply hq.isOperand htrimmed (hds hline)
    rw [isLeaf_iff] at hleaf ⊢
    have hprefix : ds <:+: ds ++ w.1 := (List.prefix_append ds w.1).isInfix
    exact ⟨fun hin => hleaf.1 (hin.trans hprefix), fun hin => hleaf.2 (hin.trans hprefix)⟩
  obtain ⟨hwhole, hcompare⟩ := hf.equation (r := r) hright w
  refine ⟨hwhole, hcompare.trans ?_⟩
  rw [operandValue_quote hq htrimmed, quoted?_open (hds hclose)]
  cases r.body.walk? f <;> simp [looselyEqual]

section Connective

variable {a : Char} (hf : IsFieldPath f) (hq : IsQuote q) (ha : a ∈ connectiveChars)

include hf hq ha

theorem pair_equation_quote :
    [a, a] <:+: equation f (q :: cs) ↔ [a, a] <:+: cs := by
  have hfield : a ∉ field f := fun hmem => (hf.mem_field hmem).2 (List.mem_append_left _ ha)
  have hmark : ∀ c ∈ connectiveChars, c ∉ " == ".toList ∧ ¬ IsQuote c := by
    simp [connectiveChars, IsQuote]
  obtain ⟨hequal, hquote⟩ := hmark a ha
  rw [equation, Text.pair_infix_append hfield, Text.pair_infix_append hequal,
    Text.pair_infix_cons (hq.ne hquote)]

theorem splitOnPair_equation_quote (h : [a, a] <:+: cs) (ds : List Char) :
    ∃ pre rest, pre <+: cs ∧ ¬ [a, a] <:+: pre ∧
      Text.splitOnPair a a (equation f (q :: (cs ++ ds))) = equation f (q :: pre) :: rest := by
  obtain ⟨pre, post, rfl, hfirst⟩ := Text.exists_first_pair h
  have hjoin (ds : List Char) : equation f (q :: pre) ++ ds = equation f (q :: (pre ++ ds)) := by
    simp only [equation, List.append_assoc, List.cons_append]
  have hhead : ¬ [a, a] <:+: equation f (q :: pre) ++ [a] := by
    rwa [hjoin, pair_equation_quote hf hq ha]
  refine ⟨pre, Text.splitOnPair a a (post ++ ds), List.prefix_append pre _, ?_, ?_⟩
  · exact fun hin => hfirst (hin.trans (List.prefix_append pre [a]).isInfix)
  · rw [List.append_assoc, ← hjoin]
    exact Text.splitOnPair_first hhead

end Connective

/-- A literal without connectives is compared as a whole, whatever blanks, relations and other
quotation marks are in it. A connective cuts it: with `&&` in the literal the expression fails for
every value of the field, and with `||` in it the expression holds when there is no value. -/
theorem literal_compared (r : Response) (hf : IsFieldPath f) (hq : IsQuote q)
    (hclose : q ∉ s.toList) (hline : '\n' ∉ s.toList) :
    (IsLeaf s.toList →
      (failure r (literalText f s q) = none ↔ EqualsLiteral (r.body.walk? f) s)) ∧
    (['&', '&'] <:+: s.toList → ¬ ['|', '|'] <:+: s.toList → (r.body.walk? f).isSome →
      failure r (literalText f s q) ≠ none) ∧
    (['|', '|'] <:+: s.toList → ¬ ['&', '&'] <:+: s.toList → r.body.walk? f = none →
      failure r (literalText f s q) = none) := by
  -- What stands in front of the first connective is an equation whose literal is not closed.
  have hopen {pre : List Char} (hpre : pre <+: s.toList) (hleaf : IsLeaf pre) :=
    equation_open (r := r) hf hq (fun hmem => hclose (hpre.subset hmem))
      (fun hmem => hline (hpre.subset hmem)) hleaf
  have hcuts : failure r (literalText f s q) = none ↔
      ∀ c ∈ conjuncts (equation f (q :: (s.toList ++ [q]))),
        ∃ d ∈ alternatives c, leafFailure r d = none := by
    rw [failure, toList_literalText, failureBy_eq_none]
  refine ⟨equation_enclosed hf hq hline, ?_, ?_⟩
  · intro hand hor hsome hnone
    obtain ⟨pre, rest, hpre, hfirst, hcut⟩ :=
      splitOnPair_equation_quote hf hq (by decide) hand [q]
    have hleaf : IsLeaf pre := isLeaf_iff.mpr ⟨hfirst, fun hin => hor (hin.trans hpre.isInfix)⟩
    obtain ⟨hwhole, hmissing⟩ := hopen hpre hleaf
    have hone : alternatives (equation f (q :: pre)) = [equation f (q :: pre)] :=
      Text.splitOnPair_of_not_occursIn hwhole.noOr
    have hholds := hcuts.mp hnone (equation f (q :: pre)) (by simp [conjuncts, hcut])
    rw [hone] at hholds
    simp [hmissing, Option.isSome_iff_ne_none.mp hsome] at hholds
  · intro hor hand hnone
    obtain ⟨pre, rest, hpre, hfirst, hcut⟩ :=
      splitOnPair_equation_quote hf hq (by decide) hor [q]
    have hleaf : IsLeaf pre := isLeaf_iff.mpr ⟨fun hin => hand (hin.trans hpre.isInfix), hfirst⟩
    obtain ⟨hwhole, hmissing⟩ := hopen hpre hleaf
    have hone : conjuncts (equation f (q :: (s.toList ++ [q]))) =
        [equation f (q :: (s.toList ++ [q]))] := by
      apply Text.splitOnPair_of_not_occursIn
      rw [← Bool.not_eq_true, Text.occursIn_iff, pair_equation_quote hf hq (by decide),
        Text.pair_infix_append_right (hq.not_mem (by decide))]
      exact hand
    rw [hcuts, hone]
    intro c hc
    obtain rfl := List.mem_singleton.mp hc
    exact ⟨equation f (q :: pre), by simp [alternatives, hcut], hmissing.mpr hnone⟩

/-- Blanks, a relation and the other quotation mark are compared. Connectives are not. -/
theorem literal_compared_padded :
    let r : Response := ⟨200, [], .object [("a", .object [("b", .string " <= \"x\" ")])]⟩
    let s := " <= \"x\" "
    IsFieldPath "a.b" ∧ IsFieldPath "a.c" ∧ IsQuote '\'' ∧ '\'' ∉ s.toList ∧ '\n' ∉ s.toList ∧
      IsLeaf s.toList ∧ EqualsLiteral (r.body.walk? "a.b") s ∧
      failure r "body.a.b == ' <= \"x\" '" = none ∧
      (r.body.walk? "a.b").isSome ∧ failure r "body.a.b == 'x && y'" ≠ none ∧
      r.body.walk? "a.c" = none ∧ failure r "body.a.c == 'x || y'" = none := by
  intro r s
  have hquote : IsQuote '\'' := .inl rfl
  have hpresent : IsFieldPath "a.b" := .of_isAlpha (by decide) (by simp) (by decide)
  have hmissing : IsFieldPath "a.c" := .of_isAlpha (by decide) (by simp) (by decide)
  have hleaf : IsLeaf s.toList := ⟨⟨by decide⟩, by decide⟩
  have hvalue : r.body.walk? "a.b" = some (.string s) := rfl
  have hnone : r.body.walk? "a.c" = none := rfl
  have hand : ['&', '&'] <:+: "x && y".toList := by decide
  have hor : ['|', '|'] <:+: "x || y".toList := by decide
  have hequal : EqualsLiteral (r.body.walk? "a.b") s := .inl hvalue
  have hsome : (r.body.walk? "a.b").isSome := by rw [hvalue, Option.isSome_some]
  have hholds := (literal_compared r hpresent hquote (s := s) (by decide) (by decide)).1 hleaf
  have hfails := (literal_compared r hpresent hquote (s := "x && y") (by decide) (by decide)).2.1
    hand (by decide) hsome
  have halone := (literal_compared r hmissing hquote (s := "x || y") (by decide) (by decide)).2.2
    hor (by decide) hnone
  have htext : literalText "a.b" s '\'' = "body.a.b == ' <= \"x\" '" := by decide +kernel
  have htextAnd : literalText "a.b" "x && y" '\'' = "body.a.b == 'x && y'" := by decide +kernel
  have htextOr : literalText "a.c" "x || y" '\'' = "body.a.c == 'x || y'" := by decide +kernel
  rw [htext] at hholds
  rw [htextAnd] at hfails
  rw [htextOr] at halone
  exact ⟨hpresent, hmissing, hquote, by decide, by decide, hleaf, hequal, hholds.mpr hequal, hsome,
    hfails, hnone, halone⟩

/-- A value that equals a literal with a connective in it. -/
theorem literal_cut :
    ¬ ∀ (r : Response) (f s : String) (q : Char), IsFieldPath f → IsQuote q → q ∉ s.toList →
      '\n' ∉ s.toList →
        (failure r (literalText f s q) = none ↔ EqualsLiteral (r.body.walk? f) s) := by
  intro h
  let r : Response := ⟨200, [], .object [("a", .string "x && y")]⟩
  have hpath : IsFieldPath "a" := .of_isAlpha (by decide) (by simp) (by decide)
  have hequal : EqualsLiteral (r.body.walk? "a") "x && y" := .inl rfl
  have hfails : (failure r (literalText "a" "x && y" '\'')).isSome := by decide +kernel
  have hholds := (h r "a" "x && y" '\'' hpath (.inl rfl) (by decide) (by decide)).mpr hequal
  rw [hholds] at hfails
  cases hfails

end Assay.Expression

import Assay.Proofs.Expression.Verdict
import Assay.Proofs.Text.Joined

namespace Assay.Expression

open Text (Blanks isBlank occursIn trimChars trimLeftChars)

variable {cs ds left right rest acc : List Char} {c : Char} {relation : Relation} {l : Leaf}

theorem isLeaf_iff : IsLeaf cs ↔ ¬ ['&', '&'] <:+: cs ∧ ¬ ['|', '|'] <:+: cs := by
  rw [← Text.occursIn_iff, ← Text.occursIn_iff, Bool.not_eq_true, Bool.not_eq_true]
  exact ⟨fun h => ⟨h.noAnd, h.noOr⟩, fun h => ⟨⟨h.1⟩, h.2⟩⟩

/-- What can stand on a side of a comparison: something on one line, without blanks at its ends and
without connectives. -/
structure IsOperand (cs : List Char) : Prop where
  nonempty : cs ≠ []
  trimmed : trimChars cs = cs
  line : '\n' ∉ cs
  leaf : IsLeaf cs

/-- The characters that relations are written with. -/
def relationChars : List Char := ['=', '!', '<', '>']

/-- A text in which no relation can begin. -/
def IsPlain (cs : List Char) : Prop := ∀ c ∈ cs, c ∉ relationChars

/-- What follows a relation does not make it another one. -/
def Separates (relation : Relation) (rest : List Char) : Prop :=
  relation = .greater ∨ relation = .less → rest.head? ≠ some '='

theorem relationsAt_symbol (h : Separates relation rest) :
    ∃ more, relationsAt (relation.symbol.toList ++ rest) = (relation, rest) :: more := by
  cases relation with
  | equal | unequal | atLeast | atMost => exact ⟨_, rfl⟩
  | greater | less =>
    cases rest with
    | nil => exact ⟨[], rfl⟩
    | cons c rest =>
      have hc : c ≠ '=' := by simpa [Separates] using h
      refine ⟨[], ?_⟩
      simp [Relation.symbol, relationsAt, hc]

theorem relationsAt_eq_nil (h : c ∉ relationChars) : relationsAt (c :: cs) = [] := by
  simp only [relationChars, List.mem_cons, List.not_mem_nil, not_or, or_false] at h
  obtain ⟨heq, hnot, hless, hgreater⟩ := h
  simp [relationsAt, heq, hnot, hless, hgreater]

theorem isPrefix_symbol {found : Relation × List Char} (h : found ∈ relationsAt cs) :
    found.1.symbol.toList <+: cs := by
  unfold relationsAt at h
  split at h
  · obtain rfl := List.mem_singleton.mp h
    simp [Relation.symbol]
  · obtain rfl := List.mem_singleton.mp h
    simp [Relation.symbol]
  · rcases List.mem_pair.mp h with rfl | rfl <;> simp [Relation.symbol]
  · rcases List.mem_pair.mp h with rfl | rfl <;> simp [Relation.symbol]
  · obtain rfl := List.mem_singleton.mp h
    simp [Relation.symbol]
  · obtain rfl := List.mem_singleton.mp h
    simp [Relation.symbol]
  · cases h

theorem symbol_eq_cons (relation : Relation) :
    ∃ c cs, relation.symbol.toList = c :: cs ∧ isBlank c = false ∧ c ≠ '&' ∧ c ≠ '|' := by
  cases relation <;> exact ⟨_, _, rfl, by decide, by decide, by decide⟩

theorem leafAt_symbol (w : Blanks) (h : Separates relation rest)
    (hright : lastOperand? rest = some right) :
    leafAt left (w.1 ++ (relation.symbol.toList ++ rest)) =
      some ⟨trimChars left, relation, right⟩ := by
  obtain ⟨c, cs, hsymbol, hc, -⟩ := symbol_eq_cons relation
  have htrim := Text.trimLeftChars_between w (cs ++ rest) hc
  rw [← List.cons_append, ← hsymbol] at htrim
  obtain ⟨more, hmore⟩ := relationsAt_symbol h
  rw [leafAt, htrim, hmore, List.findSome?_cons]
  dsimp only
  rw [hright]
  rfl

theorem leafAt_eq_none (left rest : List Char) (hplain : IsPlain ds)
    (hshown : ∃ c ∈ ds, isBlank c = false) :
    leafAt left (ds ++ rest) = none := by
  have hne : trimLeftChars ds ≠ [] := by
    intro hnil
    obtain ⟨c, hc, hblank⟩ := hshown
    rw [List.dropWhile_eq_nil_iff.mp hnil c hc] at hblank
    cases hblank
  obtain ⟨c, cs, hcs⟩ := List.exists_cons_of_ne_nil hne
  have hc : c ∈ ds := by
    apply (List.dropWhile_suffix isBlank).subset
    rw [← trimLeftChars, hcs]
    exact List.mem_cons_self
  have htrim : trimLeftChars (ds ++ rest) = c :: (cs ++ rest) := by
    rw [trimLeftChars, List.dropWhile_append, ← trimLeftChars, hcs]
    rfl
  rw [leafAt, htrim, relationsAt_eq_nil (hplain c hc)]
  rfl

/-- The first operand is extended to its end when no relation begins inside it. -/
theorem extend_append (hplain : IsPlain (ds ++ [c])) (hline : '\n' ∉ ds ++ [c])
    (hc : isBlank c = false) (h : leafAt (acc ++ (ds ++ [c])) rest = some l) :
    extend acc (ds ++ c :: rest) = some l := by
  induction ds generalizing acc with
  | nil =>
    have hnewline : c ≠ '\n' := by simpa [eq_comm] using hline
    rw [List.nil_append] at h ⊢
    rw [extend, if_neg hnewline, h]
    rfl
  | cons d ds ih =>
    rw [List.cons_append] at hplain hline h ⊢
    have hnewline : d ≠ '\n' := (List.ne_of_not_mem_cons hline).symm
    have hrest : IsPlain (ds ++ [c]) := fun e he => hplain e (List.mem_cons_of_mem d he)
    -- Behind `d` the operand goes on, so no relation is found there.
    have hnone := leafAt_eq_none (acc ++ [d]) rest hrest ⟨c, by simp, hc⟩
    rw [List.append_assoc, List.singleton_append] at hnone
    rw [extend, if_neg hnewline, hnone]
    apply ih hrest (List.not_mem_of_not_mem_cons hline)
    rw [List.append_assoc]
    exact h

theorem leaf?_blanks (w : Blanks) (h : leaf? cs = some l) : leaf? (w.1 ++ cs) = some l := by
  obtain ⟨w, hw⟩ := w
  induction w with
  | nil => exact h
  | cons c w ih =>
    obtain ⟨hc, hw⟩ := List.forall_mem_cons.mp hw
    have hrest := ih hw
    rw [List.cons_append, leaf?, if_pos hc, hrest]
    rfl

theorem leaf?_relation (hne : left ≠ []) (htrimmed : trimChars left = left) (hline : '\n' ∉ left)
    (hplain : IsPlain left) (w w' : Blanks) (h : Separates relation rest)
    (hright : lastOperand? rest = some right) :
    leaf? (w.1 ++ (left ++ (w'.1 ++ (relation.symbol.toList ++ rest)))) =
      some ⟨left, relation, right⟩ := by
  have hstart : leaf? (left ++ (w'.1 ++ (relation.symbol.toList ++ rest))) =
      extend [] (left ++ (w'.1 ++ (relation.symbol.toList ++ rest))) := by
    obtain ⟨c, cs, rfl⟩ := List.exists_cons_of_ne_nil hne
    have hc : isBlank c = false := Text.isBlank_head htrimmed
    rw [List.cons_append, leaf?, if_neg (by simp [hc])]
  have hend : leafAt ([] ++ left) (w'.1 ++ (relation.symbol.toList ++ rest)) =
      some ⟨left, relation, right⟩ := by
    rw [leafAt_symbol w' h hright, List.nil_append, htrimmed]
  apply leaf?_blanks w
  rw [hstart]
  obtain ⟨ds, c, rfl⟩ := (List.eq_nil_or_concat' left).resolve_left hne
  rw [List.append_assoc]
  exact extend_append hplain hline (Text.isBlank_last htrimmed) hend

theorem lastOperand?_blanks (h : IsOperand right) (w w' : Blanks) :
    lastOperand? (w.1 ++ (right ++ w'.1)) = some right := by
  have hne : right.isEmpty = false := by simpa [List.isEmpty_iff] using h.nonempty
  have hline : right.contains '\n' = false := by simpa using h.line
  simp only [lastOperand?, Text.trimChars_between, h.trimmed, hne, hline]
  rfl

/-- A comparison as it is written, with blanks in front of, between and behind its parts. -/
def Leaf.print (l : Leaf) (w₁ w₂ w₃ w₄ : Blanks) : List Char :=
  w₁.1 ++ (l.left ++ (w₂.1 ++ (l.relation.symbol.toList ++ (w₃.1 ++ (l.right ++ w₄.1)))))

/-- The parts of a comparison that can be told from each other when it is written. -/
structure Leaf.Printable (l : Leaf) : Prop where
  left : IsOperand l.left
  plain : IsPlain l.left
  right : IsOperand l.right

/-- Behind `>` and `<` there are blanks, or no `=` comes next. -/
def Leaf.Parted (l : Leaf) (w : Blanks) : Prop :=
  l.relation = .greater ∨ l.relation = .less → w.1 ≠ [] ∨ l.right.head? ≠ some '='

variable {w₁ w₂ w₃ w₄ : Blanks}

theorem Leaf.Parted.separates (h : l.Parted w₃) (hright : l.right ≠ []) :
    Separates l.relation (w₃.1 ++ (l.right ++ w₄.1)) := by
  intro hrelation
  obtain ⟨w, hw⟩ := w₃
  cases w with
  | nil =>
    have hnext := (h hrelation).resolve_left (by simp)
    obtain ⟨c, cs, hcs⟩ := List.exists_cons_of_ne_nil hright
    rw [hcs] at hnext ⊢
    exact hnext
  | cons c w =>
    rintro hc
    cases Option.some.inj hc
    exact absurd (hw '=' List.mem_cons_self) (by decide)

theorem leaf?_print (w₁ w₂ w₄ : Blanks) (h : l.Printable) (hparted : l.Parted w₃) :
    leaf? (l.print w₁ w₂ w₃ w₄) = some l :=
  leaf?_relation h.left.nonempty h.left.trimmed h.left.line h.plain w₁ w₂
    (hparted.separates h.right.nonempty) (lastOperand?_blanks h.right w₃ w₄)

theorem pair_print {a : Char} (ha : isBlank a = false)
    (hsymbol : ∀ relation : Relation, a ∉ relation.symbol.toList) :
    [a, a] <:+: l.print w₁ w₂ w₃ w₄ ↔ [a, a] <:+: l.left ∨ [a, a] <:+: l.right := by
  have hblank (w : Blanks) : a ∉ w.1 := fun hw => by simp [w.2 a hw] at ha
  have hnot := hsymbol l.relation
  obtain ⟨c, cs, hcs, -⟩ := symbol_eq_cons l.relation
  rw [hcs] at hnot
  obtain ⟨hc, hrest⟩ := List.ne_and_not_mem_of_not_mem_cons hnot
  rw [Leaf.print, hcs, Text.pair_infix_append (hblank w₁), ← List.append_assoc, List.cons_append,
    Text.pair_infix_append_cons hc.symm hc.symm, Text.pair_infix_append_right (hblank w₂),
    Text.pair_infix_append hrest, Text.pair_infix_append (hblank w₃),
    Text.pair_infix_append_right (hblank w₄)]

theorem isLeaf_print (h : l.Printable) : IsLeaf (l.print w₁ w₂ w₃ w₄) := by
  obtain ⟨hleftAnd, hleftOr⟩ := isLeaf_iff.mp h.left.leaf
  obtain ⟨hrightAnd, hrightOr⟩ := isLeaf_iff.mp h.right.leaf
  have hand : ∀ relation : Relation, '&' ∉ relation.symbol.toList := by
    intro relation
    cases relation <;> decide
  have hor : ∀ relation : Relation, '|' ∉ relation.symbol.toList := by
    intro relation
    cases relation <;> decide
  rw [isLeaf_iff, pair_print (by decide) hand, pair_print (by decide) hor]
  exact ⟨not_or.mpr ⟨hleftAnd, hrightAnd⟩, not_or.mpr ⟨hleftOr, hrightOr⟩⟩

theorem failure_ofList (r : Response) (h : IsLeaf cs) :
    failure r (String.ofList cs) = leafFailure r cs := by
  rw [failure, String.toList_ofList, h.failureBy]

theorem leafFailure_eq_none (r : Response) (h : leaf? cs = some l) :
    leafFailure r cs = none ↔ holds (pathValue r l.left) (operandValue r l.right) l.relation := by
  unfold leafFailure
  simp only [h]
  split
  · next hholds => exact iff_of_true rfl hholds
  · next hholds => exact iff_of_false nofun hholds

/-- No relation stands anywhere in the text. -/
def RelationFree (cs : List Char) : Prop :=
  ∀ relation : Relation, ¬ relation.symbol.toList <:+: cs

theorem RelationFree.of_suffix (h : RelationFree cs) (hds : ds <:+ cs) : RelationFree ds :=
  fun relation hin => h relation (hin.trans hds.isInfix)

theorem RelationFree.leafAt_eq_none (h : RelationFree cs) : leafAt left cs = none := by
  have hnone : relationsAt (trimLeftChars cs) = [] := by
    apply List.eq_nil_iff_forall_not_mem.mpr
    intro found hfound
    have hsuffix : trimLeftChars cs <:+ cs := List.dropWhile_suffix isBlank
    exact h found.1 ((isPrefix_symbol hfound).isInfix.trans hsuffix.isInfix)
  rw [leafAt, hnone]
  rfl

theorem RelationFree.extend_eq_none (h : RelationFree cs) : extend acc cs = none := by
  induction cs generalizing acc with
  | nil => rfl
  | cons c cs ih =>
    have hrest : RelationFree cs := h.of_suffix (List.suffix_cons c cs)
    rw [extend, hrest.leafAt_eq_none, ih hrest]
    split <;> rfl

theorem RelationFree.leaf?_eq_none (h : RelationFree cs) : leaf? cs = none := by
  induction cs with
  | nil => rfl
  | cons c cs ih =>
    have hrest : RelationFree cs := h.of_suffix (List.suffix_cons c cs)
    rw [leaf?, ih hrest, h.extend_eq_none]
    split <;> rfl

/-- A comparison is read as it was written and judged by the values of its operands, whatever blanks
stand in it. A text without relations and connectives is no expression. -/
theorem leaf_inverts_print (r : Response) :
    (∀ (l : Leaf) (w₁ w₂ w₃ w₄ : Blanks), l.Printable → l.Parted w₃ →
      leaf? (l.print w₁ w₂ w₃ w₄) = some l ∧
      (failure r (String.ofList (l.print w₁ w₂ w₃ w₄)) = none ↔
        holds (pathValue r l.left) (operandValue r l.right) l.relation)) ∧
    ∀ text : String, IsLeaf text.toList → RelationFree text.toList →
      failure r text = some ("Invalid expression: '" ++ Text.trim text ++ "'") := by
  constructor
  · intro l w₁ w₂ w₃ w₄ h hparted
    have hleaf := leaf?_print w₁ w₂ w₄ h hparted
    refine ⟨hleaf, ?_⟩
    rw [failure_ofList r (isLeaf_print h)]
    exact leafFailure_eq_none r hleaf
  · intro text hleaf hfree
    rw [failure, hleaf.failureBy]
    simp only [leafFailure, hfree.leaf?_eq_none]
    rfl

/-- Blanks may be line breaks, an operand may hold the symbol of another relation, and `=` and `!`
alone are no relations. -/
theorem leaf_inverts_print_spread :
    let r : Response := ⟨200, [], .object [("a", .string "<= 1")]⟩
    let l : Leaf := ⟨"body.a".toList, .atLeast, "'<= 0'".toList⟩
    let w₁ : Blanks := ⟨[' ', '\t'], List.all_eq_true.mp rfl⟩
    let w₂ : Blanks := ⟨['\n'], List.all_eq_true.mp rfl⟩
    let w₃ : Blanks := ⟨[], List.forall_mem_nil _⟩
    l.Printable ∧ l.Parted w₃ ∧ leaf? (l.print w₁ w₂ w₃ w₂) = some l ∧
      String.ofList (l.print w₁ w₂ w₃ w₂) = " \tbody.a\n>='<= 0'\n" ∧
      failure r " \tbody.a\n>='<= 0'\n" = none ∧
      IsLeaf "body.ok = !".toList ∧ RelationFree "body.ok = !".toList ∧
      failure r "body.ok = !" = some "Invalid expression: 'body.ok = !'" := by
  intro r l w₁ w₂ w₃
  have hprintable : l.Printable :=
    { left := ⟨by decide, by decide, by decide, ⟨⟨rfl⟩, rfl⟩⟩
      plain := by simp [IsPlain, relationChars, l]
      right := ⟨by decide, by decide, by decide, ⟨⟨rfl⟩, rfl⟩⟩ }
  have hparted : l.Parted w₃ := by simp [Leaf.Parted, l]
  have hfree : RelationFree "body.ok = !".toList := by
    intro relation
    rw [← Text.occursIn_iff]
    cases relation <;> decide
  have hleaf : IsLeaf "body.ok = !".toList := ⟨⟨rfl⟩, rfl⟩
  obtain ⟨hprint, hinvalid⟩ := leaf_inverts_print r
  obtain ⟨hread, hholds⟩ := hprint l w₁ w₂ w₃ w₂ hprintable hparted
  have hcompare : holds (pathValue r l.left) (operandValue r l.right) l.relation := by
    decide +kernel
  have htext : String.ofList (l.print w₁ w₂ w₃ w₂) = " \tbody.a\n>='<= 0'\n" := by decide +kernel
  have hreason : failure r "body.ok = !" = some "Invalid expression: 'body.ok = !'" :=
    hinvalid _ hleaf hfree
  rw [htext] at hholds
  exact ⟨hprintable, hparted, hread, htext, hholds.mpr hcompare, hleaf, hfree, hreason⟩

end Assay.Expression

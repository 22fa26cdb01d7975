import Assay.Libraries.BuiltIn
import Assay.Proofs.Check.Headers
import Assay.Proofs.Expression.Missing

namespace Assay

variable {α β : Type}

/-- Lists that are related part by part are related when their parts are of one length. -/
theorem forall₂_flatMap {R : β → β → Prop} {S : α → α → Prop} {f : α → List β} {as bs : List α}
    (hparts : List.Forall₂ S as bs) (hlength : ∀ a b, S a b → (f a).length = (f b).length)
    (h : List.Forall₂ R (as.flatMap f) (bs.flatMap f)) :
    List.Forall₂ (fun a b => S a b ∧ List.Forall₂ R (f a) (f b)) as bs := by
  induction hparts with
  | nil => exact .nil
  | @cons a b as bs hab _ ih =>
    rw [List.flatMap_cons, List.flatMap_cons] at h
    have hfirst := List.forall₂_take (f a).length h
    have hrest := List.forall₂_drop (f a).length h
    rw [List.take_left, hlength a b hab, List.take_left] at hfirst
    rw [List.drop_left, hlength a b hab, List.drop_left] at hrest
    exact .cons ⟨hab, hfirst⟩ (ih hrest)

theorem forall_mem_iff_of_forall₂ {P Q : α → Prop} {as bs : List α}
    (h : List.Forall₂ (fun a b => P a ↔ Q b) as bs) : (∀ a ∈ as, P a) ↔ ∀ b ∈ bs, Q b := by
  induction h with
  | nil => simp
  | cons hab _ ih => rw [List.forall_mem_cons, List.forall_mem_cons, hab, ih]

theorem exists_mem_iff_of_forall₂ {P Q : α → Prop} {as bs : List α}
    (h : List.Forall₂ (fun a b => P a ↔ Q b) as bs) : (∃ a ∈ as, P a) ↔ ∃ b ∈ bs, Q b := by
  induction h with
  | nil => simp
  | cons hab _ ih => rw [List.exists_mem_cons_iff, List.exists_mem_cons_iff, hab, ih]

namespace Expression

open Text (toLower_eq_iff toLower_eq_of_not_isAlpha trimChars trimChars_map_toLower)

variable {r : Response} {cs ds name other left right : List Char} {l : Leaf}

section Case

theorem not_isAlpha_of_mem {c : Char} (h : c ∈ relationChars) : c.isAlpha = false := by
  have hall : ∀ c ∈ relationChars, c.isAlpha = false := by simp [relationChars]
  exact hall c h

def Leaf.folded (l : Leaf) : Leaf :=
  ⟨l.left.map Char.toLower, l.relation, l.right.map Char.toLower⟩

theorem relationsAt_map_toLower (cs : List Char) :
    relationsAt (cs.map Char.toLower) =
      (relationsAt cs).map (Prod.map id (List.map Char.toLower)) := by
  cases cs with
  | nil => rfl
  | cons c cs =>
    rw [List.map_cons]
    by_cases hc : c ∈ relationChars
    · rw [toLower_eq_of_not_isAlpha (not_isAlpha_of_mem hc)]
      cases cs with
      | nil =>
        simp only [relationChars, List.mem_cons, List.not_mem_nil, or_false] at hc
        rcases hc with rfl | rfl | rfl | rfl <;> rfl
      | cons d cs =>
        rw [List.map_cons]
        have hd : d.toLower = '=' ↔ d = '=' := toLower_eq_iff (by decide)
        simp only [relationChars, List.mem_cons, List.not_mem_nil, or_false] at hc
        by_cases hequal : d = '='
        · subst hequal
          rcases hc with rfl | rfl | rfl | rfl <;> rfl
        · rcases hc with rfl | rfl | rfl | rfl <;> simp [relationsAt, hd, hequal]
    · have hlow : c.toLower ∉ relationChars := by
        intro hmem
        have heq : c = c.toLower := (toLower_eq_iff (not_isAlpha_of_mem hmem)).mp rfl
        exact hc (heq ▸ hmem)
      rw [relationsAt_eq_nil hc, relationsAt_eq_nil hlow]
      rfl

theorem lastOperand?_map_toLower (cs : List Char) :
    lastOperand? (cs.map Char.toLower) = (lastOperand? cs).map (List.map Char.toLower) := by
  have hline (c : Char) : c.toLower = '\n' ↔ c = '\n' := toLower_eq_iff (by decide)
  have hcontains (cs : List Char) : (cs.map Char.toLower).contains '\n' = cs.contains '\n' := by
    simp [hline]
  have hany : (cs.map Char.toLower).any (· != '\n') = cs.any (· != '\n') := by
    rw [Bool.eq_iff_iff, List.any_eq_true, List.any_eq_true]
    simp [hline]
  unfold lastOperand?
  rw [trimChars_map_toLower]
  dsimp only
  rw [List.isEmpty_map, hcontains, hany]
  split
  · split <;> rfl
  · split <;> rfl

theorem leafAt_map_toLower (left cs : List Char) :
    leafAt (left.map Char.toLower) (cs.map Char.toLower) = (leafAt left cs).map Leaf.folded := by
  unfold leafAt
  rw [Text.trimLeftChars_map_toLower, relationsAt_map_toLower, trimChars_map_toLower,
    List.findSome?_map]
  generalize relationsAt (Text.trimLeftChars cs) = found
  induction found with
  | nil => rfl
  | cons f found ih =>
    obtain ⟨relation, rest⟩ := f
    rw [List.findSome?_cons, List.findSome?_cons, ih]
    dsimp only [Function.comp_apply, Prod.map_apply, id]
    rw [lastOperand?_map_toLower]
    cases lastOperand? rest <;> rfl

theorem extend_map_toLower (left cs : List Char) :
    extend (left.map Char.toLower) (cs.map Char.toLower) = (extend left cs).map Leaf.folded := by
  induction cs generalizing left with
  | nil => rfl
  | cons c cs ih =>
    have hline : c.toLower = '\n' ↔ c = '\n' := toLower_eq_iff (by decide)
    have hleft : left.map Char.toLower ++ [c.toLower] = (left ++ [c]).map Char.toLower := by simp
    rw [List.map_cons, extend, extend, hleft, leafAt_map_toLower, ih]
    by_cases hc : c = '\n'
    · rw [if_pos (hline.mpr hc), if_pos hc]
      rfl
    · rw [if_neg (hline.not.mpr hc), if_neg hc]
      cases leafAt (left ++ [c]) cs <;> rfl

/-- How a comparison is read does not depend on the case of letters. -/
theorem leaf?_map_toLower (cs : List Char) :
    leaf? (cs.map Char.toLower) = (leaf? cs).map Leaf.folded := by
  induction cs with
  | nil => rfl
  | cons c cs ih =>
    have hextend := extend_map_toLower [] (c :: cs)
    rw [List.map_nil, List.map_cons] at hextend
    rw [List.map_cons, leaf?, leaf?, Text.isBlank_toLower, ih, hextend]
    split
    · cases leaf? cs <;> rfl
    · rfl

theorem conjuncts_map_toLower (cs : List Char) :
    conjuncts (cs.map Char.toLower) = (conjuncts cs).map (List.map Char.toLower) :=
  Text.splitOnPair_map_toLower (by decide) (by decide) cs

theorem alternatives_map_toLower (cs : List Char) :
    alternatives (cs.map Char.toLower) = (alternatives cs).map (List.map Char.toLower) :=
  Text.splitOnPair_map_toLower (by decide) (by decide) cs

/-- The same text but for the case of ASCII letters. -/
def SameLetters (cs ds : List Char) : Prop := cs.map Char.toLower = ds.map Char.toLower

instance : Decidable (SameLetters cs ds) :=
  inferInstanceAs (Decidable (cs.map Char.toLower = ds.map Char.toLower))

theorem forall₂_sameLetters {as bs : List (List Char)}
    (h : as.map (List.map Char.toLower) = bs.map (List.map Char.toLower)) :
    List.Forall₂ SameLetters as bs := by
  rw [← List.forall₂_eq_eq_eq, List.forall₂_map_left_iff, List.forall₂_map_right_iff] at h
  exact h

def Leaf.operands (l : Leaf) : List (List Char) := [l.left, l.right]

/-- The operands of a comparison; a text that is none has none. -/
def leafOperands (cs : List Char) : List (List Char) := (leaf? cs).elim [] Leaf.operands

def conjunctOperands (cs : List Char) : List (List Char) := (alternatives cs).flatMap leafOperands

/-- The operands of all comparisons of an expression, in order. -/
def operands (cs : List Char) : List (List Char) := (conjuncts cs).flatMap conjunctOperands

theorem leafOperands_map_toLower (cs : List Char) :
    leafOperands (cs.map Char.toLower) = (leafOperands cs).map (List.map Char.toLower) := by
  unfold leafOperands
  rw [leaf?_map_toLower]
  cases leaf? cs <;> rfl

theorem conjunctOperands_map_toLower (cs : List Char) :
    conjunctOperands (cs.map Char.toLower) = (conjunctOperands cs).map (List.map Char.toLower) := by
  rw [conjunctOperands, conjunctOperands, alternatives_map_toLower, List.flatMap_map,
    List.map_flatMap]
  exact List.flatMap_congr fun d _ => leafOperands_map_toLower d

theorem SameLetters.length_eq {f : List Char → List (List Char)}
    (hf : ∀ cs, f (cs.map Char.toLower) = (f cs).map (List.map Char.toLower))
    (h : SameLetters cs ds) : (f cs).length = (f ds).length := by
  rw [← List.length_map (List.map Char.toLower), ← hf, h, hf, List.length_map]

end Case

/-- The same operand, or one header under its name in other letter case. -/
inductive SameOperand : List Char → List Char → Prop
  | same (cs : List Char) : SameOperand cs cs
  | header {name other : List Char} (h : SameLetters name other) :
    SameOperand ("headers.".toList ++ name) ("headers.".toList ++ other)

theorem trimChars_header (name : List Char) :
    trimChars ("headers.".toList ++ name) = "headers.".toList ++ Text.trimRightChars name :=
  Text.trimChars_between_shown (a := 'h') (b := '.') "eaders".toList name (by decide) (by decide)

theorem pathValue_header (r : Response) (name : List Char) :
    pathValue r ("headers.".toList ++ name) =
      (Check.header? r.headers (String.ofList (Text.trimRightChars name))).map .string := by
  have hcut (cs : List Char) : Text.splitOnChar '.' ("headers.".toList ++ cs) =
      "headers".toList :: Text.splitOnChar '.' cs := rfl
  have hprefix (cs : List Char) :
      Text.dropPrefix "headers.".toList ("headers.".toList ++ cs) = some cs := rfl
  unfold pathValue
  rw [trimChars_header]
  simp only [Value.segments, String.toList_ofList, hcut, List.map_cons, hprefix]
  rfl

theorem operandValue_header (r : Response) (name : List Char) :
    operandValue r ("headers.".toList ++ name) = pathValue r ("headers.".toList ++ name) := by
  apply operandValue_path
  rw [trimChars_header]
  exact not_isLiteral_head (c := 'h') (by decide) (by decide) (by decide) (by decide) _

theorem SameOperand.pathValue (h : SameOperand cs ds) : pathValue r cs = pathValue r ds := by
  cases h with
  | same => rfl
  | @header name other hname =>
    have htrim : SameLetters (Text.trimRightChars name) (Text.trimRightChars other) := by
      rw [SameLetters, ← Text.trimRightChars_map_toLower, hname, Text.trimRightChars_map_toLower]
    rw [pathValue_header, pathValue_header, Check.header?_congr]
    rw [Text.sameIgnoringCase_iff, String.toList_ofList, String.toList_ofList]
    exact htrim

theorem SameOperand.operandValue (h : SameOperand cs ds) :
    operandValue r cs = operandValue r ds := by
  cases h with
  | same => rfl
  | header hname =>
    rw [operandValue_header, operandValue_header]
    exact (SameOperand.header hname).pathValue

theorem leafFailure_recased (hletters : SameLetters cs ds)
    (hoperands : List.Forall₂ SameOperand (leafOperands cs) (leafOperands ds)) :
    leafFailure r cs = none ↔ leafFailure r ds = none := by
  have hread : (leaf? cs).map Leaf.folded = (leaf? ds).map Leaf.folded := by
    rw [← leaf?_map_toLower, hletters, leaf?_map_toLower]
  cases hl : leaf? cs with
  | none =>
    have hm : leaf? ds = none := by simpa [hl] using hread.symm
    simp [leafFailure, hl, hm]
  | some l =>
    obtain ⟨m, hm, hlm⟩ : ∃ m, leaf? ds = some m ∧ l.folded = m.folded := by
      simpa [hl, eq_comm] using hread.symm
    have hrelation : l.folded.relation = m.folded.relation := congrArg Leaf.relation hlm
    rw [leafOperands, leafOperands, hl, hm] at hoperands
    obtain ⟨hleft, hright⟩ : SameOperand l.left m.left ∧ SameOperand l.right m.right := by
      simpa [Leaf.operands] using hoperands
    rw [leafFailure_eq_none r hl, leafFailure_eq_none r hm, hleft.pathValue, hright.operandValue,
      show l.relation = m.relation from hrelation]

theorem failure_recased {expression renamed : String}
    (hletters : Text.sameIgnoringCase expression renamed)
    (hoperands : List.Forall₂ SameOperand (operands expression.toList) (operands renamed.toList)) :
    failure r expression = none ↔ failure r renamed = none := by
  rw [Text.sameIgnoringCase_iff] at hletters
  have hconjuncts : List.Forall₂ SameLetters (conjuncts expression.toList)
      (conjuncts renamed.toList) := by
    apply forall₂_sameLetters
    rw [← conjuncts_map_toLower, hletters, conjuncts_map_toLower]
  rw [failure, failure, failureBy_eq_none, failureBy_eq_none]
  apply forall_mem_iff_of_forall₂
  refine (forall₂_flatMap hconjuncts
    (fun c d => SameLetters.length_eq conjunctOperands_map_toLower) hoperands).imp ?_
  rintro c d ⟨hcd, hoperands⟩
  have halternatives : List.Forall₂ SameLetters (alternatives c) (alternatives d) := by
    apply forall₂_sameLetters
    rw [← alternatives_map_toLower, hcd, alternatives_map_toLower]
  apply exists_mem_iff_of_forall₂
  refine (forall₂_flatMap halternatives
    (fun c d => SameLetters.length_eq leafOperands_map_toLower) hoperands).imp ?_
  rintro c d ⟨hcd, hoperands⟩
  exact leafFailure_recased hcd hoperands

theorem failure_congr {headers shuffled : List (String × String)}
    (h : ∀ name, Check.header? headers name = Check.header? shuffled name) (status : Nat)
    (body : Value) (expression : String) :
    failure ⟨status, headers, body⟩ expression = failure ⟨status, shuffled, body⟩ expression := by
  have hpath (cs : List Char) :
      Expression.pathValue ⟨status, headers, body⟩ cs =
        Expression.pathValue ⟨status, shuffled, body⟩ cs := by
    simp only [Expression.pathValue, h]
  have hoperand (cs : List Char) :
      Expression.operandValue ⟨status, headers, body⟩ cs =
        Expression.operandValue ⟨status, shuffled, body⟩ cs := by
    simp only [Expression.operandValue, hpath]
  have hleaf : leafFailure ⟨status, headers, body⟩ = leafFailure ⟨status, shuffled, body⟩ := by
    funext cs
    simp only [leafFailure, hpath, hoperand]
  rw [failure, failure, hleaf]

/-- A name without blanks at its ends leads to the header that an expectation on it looks at. -/
theorem pathValue_name {name : String} (h : trimChars name.toList = name.toList) (r : Response) :
    pathValue r ("headers." ++ name).toList = (Check.header? r.headers name).map .string := by
  have hright : Text.trimRightChars name.toList = name.toList := by
    rw [← h, trimChars]
    exact List.rdropWhile_idempotent ..
  rw [String.toList_append, pathValue_header, hright, String.ofList_toList]

end Expression

variable {headers : List (String × String)}

/-- Neither the order of headers nor the case of ASCII letters in their names matters, and a name
leads to the same header in an expectation and in an expression. -/
theorem header_lookups_agree [Libraries] (hnames : Check.DistinctNames headers) :
    (∀ shuffled, headers.Perm shuffled →
      (∀ expected, Check.headers headers expected = Check.headers shuffled expected) ∧
      ∀ status body expression, Expression.failure ⟨status, headers, body⟩ expression =
        Expression.failure ⟨status, shuffled, body⟩ expression) ∧
    (∀ expected renamed, List.Forall₂ Check.SameExpectation expected renamed →
      Check.headers headers expected = Check.headers headers renamed) ∧
    (∀ expression renamed, Text.sameIgnoringCase expression renamed →
      List.Forall₂ Expression.SameOperand (Expression.operands expression.toList)
        (Expression.operands renamed.toList) →
      ∀ status body, (Expression.failure ⟨status, headers, body⟩ expression = none ↔
        Expression.failure ⟨status, headers, body⟩ renamed = none)) ∧
    ∀ name, Text.trimChars name.toList = name.toList → ∀ status body,
      let r : Response := ⟨status, headers, body⟩
      let path := "headers." ++ name
      Expression.pathValue r path.toList = (Check.header? headers name).map .string ∧
      Expression.operandValue r path.toList = (Check.header? headers name).map .string ∧
      ∀ condition, Check.headers headers [(name, condition)] =
        Check.evaluate condition (Expression.operandValue r path.toList)
          ("headers." ++ Text.lower name) := by
  refine ⟨?_, ?_, ?_, ?_⟩
  · intro shuffled hperm
    have hfound := Check.header?_perm hnames hperm
    exact ⟨Check.headers_congr hfound, Expression.failure_congr hfound⟩
  · intro expected renamed hsame
    exact Check.headers_renamed hsame
  · intro expression renamed hletters hoperands status body
    exact Expression.failure_recased hletters hoperands
  · intro name htrimmed status body r path
    have hpath := Expression.pathValue_name htrimmed r
    have hoperand : Expression.operandValue r path.toList = Expression.pathValue r path.toList := by
      rw [String.toList_append, Expression.operandValue_header]
    refine ⟨hpath, hoperand.trans hpath, ?_⟩
    intro condition
    rw [hoperand, hpath, Check.headers_singleton]

/-- Headers in the other order, a name in capital letters on both sides of a comparison, and a name
with a point. -/
theorem header_lookups_agree_reversed :
    let headers := [("X-Total", "42"), ("Content.Type", "a")]
    let shuffled := [("Content.Type", "a"), ("X-Total", "42")]
    let r : Response := ⟨200, headers, .null⟩
    let condition : Value := .object [("contains", .string "4")]
    let expression := "headers.x-total >= 40 || status == 201 && headers.x-total == headers.X-TOTAL"
    let renamed := "headers.X-Total >= 40 || status == 201 && headers.X-TOTAL == headers.x-total"
    Check.DistinctNames headers ∧
      Check.headers headers [("x-total", condition)] =
        Check.headers shuffled [("x-total", condition)] ∧
      Expression.failure r expression = Expression.failure ⟨200, shuffled, .null⟩ expression ∧
      Check.headers headers [("x-total", condition)] =
        Check.headers headers [("X-TOTAL", condition)] ∧
      Expression.failure r expression = none ∧ Expression.failure r renamed = none ∧
      Expression.operandValue r "headers.content.type".toList = some (.string "a") ∧
      Check.headers headers [("content.type", condition)] =
        Check.evaluate condition (some (.string "a"))
          ("headers." ++ Text.lower "content.type") := by
  intro headers shuffled r condition expression renamed
  have hnames : Check.DistinctNames headers := by
    simp only [Check.DistinctNames, headers, List.pairwise_pair]
    decide
  have hletters : Text.sameIgnoringCase "x-total" "X-TOTAL" := by decide
  have hsame : Text.sameIgnoringCase expression renamed := by decide +kernel
  have hoperands : List.Forall₂ Expression.SameOperand (Expression.operands expression.toList)
      (Expression.operands renamed.toList) := by
    have hone : Expression.operands expression.toList =
      ["headers.".toList ++ "x-total".toList, "40".toList, "status".toList, "201".toList,
        "headers.".toList ++ "x-total".toList, "headers.".toList ++ "X-TOTAL".toList] := by
      decide +kernel
    have hother : Expression.operands renamed.toList =
      ["headers.".toList ++ "X-Total".toList, "40".toList, "status".toList, "201".toList,
        "headers.".toList ++ "X-TOTAL".toList, "headers.".toList ++ "x-total".toList] := by
      decide +kernel
    rw [hone, hother]
    exact .cons (.header (by decide)) <| .cons (.same _) <| .cons (.same _) <| .cons (.same _) <|
      .cons (.header (by decide)) <| .cons (.header (by decide)) .nil
  have hholds : Expression.failure r expression = none := by decide +kernel
  have hfound : Check.header? headers "content.type" = some "a" := by decide
  obtain ⟨horder, hcase, hexpression, hname⟩ := header_lookups_agree hnames
  obtain ⟨hchecks, hfailure⟩ := horder shuffled (.swap ..)
  obtain ⟨-, hoperand, hlooked⟩ := hname "content.type" (by decide) 200 .null
  have hlooked := hlooked condition
  rw [hoperand, hfound] at hlooked
  rw [hfound] at hoperand
  exact ⟨hnames, hchecks _, hfailure 200 .null expression,
    hcase _ _ (.cons ⟨hletters, rfl⟩ .nil), hholds,
    (hexpression expression renamed hsame hoperands 200 .null).mp hholds, hoperand, hlooked⟩

end Assay

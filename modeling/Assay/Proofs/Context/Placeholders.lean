import Assay.Context
import Mathlib.Data.List.Basic

namespace Assay

namespace Template

variable {value? : String → Option String} {cs name rest pre post : List Char}

def IsBraceFree (cs : List Char) : Prop := ∀ c ∈ cs, isBrace c = false

theorem isBraceFree_of_all (h : cs.all (!isBrace ·) = true) : IsBraceFree cs := by
  intro c hc
  simpa using List.all_eq_true.mp h c hc

theorem isBraceFree_takeWhile (cs : List Char) : IsBraceFree (cs.takeWhile (!isBrace ·)) := by
  exact isBraceFree_of_all List.all_takeWhile

theorem IsBraceFree.takeWhile (h : IsBraceFree name) :
    (name ++ '\x7d' :: rest).takeWhile (!isBrace ·) = name := by
  have hname : ∀ c ∈ name, (!isBrace c) = true := fun c hc => by simp [h c hc]
  rw [List.takeWhile_append_of_pos hname]
  simp [isBrace]

theorem IsBraceFree.dropWhile (h : IsBraceFree name) :
    (name ++ '\x7d' :: rest).dropWhile (!isBrace ·) = '\x7d' :: rest := by
  have hname : ∀ c ∈ name, (!isBrace c) = true := fun c hc => by simp [h c hc]
  rw [List.dropWhile_append_of_pos hname]
  simp [isBrace]

/-- A placeholder as it is written. -/
def enclosed (name : List Char) : List Char :=
  '\x7b' :: '\x7b' :: (name ++ ['\x7d', '\x7d'])

theorem enclosed_append (name rest : List Char) :
    enclosed name ++ rest = '\x7b' :: '\x7b' :: (name ++ '\x7d' :: '\x7d' :: rest) := by
  simp [enclosed]

theorem placeholder?_enclosed (h : IsBraceFree name) (hne : name ≠ []) (rest : List Char) :
    placeholder? (enclosed name ++ rest) = some (name, rest) := by
  rw [enclosed_append]
  simp only [placeholder?, h.dropWhile, h.takeWhile]
  simp [hne]

theorem placeholder?_eq_some :
    placeholder? cs = some (name, rest) ↔
      IsBraceFree name ∧ name ≠ [] ∧ cs = enclosed name ++ rest := by
  constructor
  · intro h
    unfold placeholder? at h
    split at h
    next r =>
      split at h
      next tail htail =>
        split at h
        · cases h
        next hne =>
          cases h
          refine ⟨isBraceFree_takeWhile r, by simpa using hne, ?_⟩
          rw [enclosed_append, ← htail, List.takeWhile_append_dropWhile]
      next => cases h
    next => cases h
  · rintro ⟨hfree, hne, rfl⟩
    exact placeholder?_enclosed hfree hne rest

/-- A placeholder does not reach into two braces that open another one. -/
theorem placeholder?_append_braces (hpre : pre ≠ []) (tail : List Char) :
    placeholder? (pre ++ '\x7b' :: '\x7b' :: tail) =
      (placeholder? pre).map fun p => (p.1, p.2 ++ '\x7b' :: '\x7b' :: tail) := by
  cases h : placeholder? pre with
  | some p =>
    obtain ⟨name, rest⟩ := p
    obtain ⟨hfree, hne, rfl⟩ := placeholder?_eq_some.mp h
    rw [List.append_assoc]
    exact placeholder?_enclosed hfree hne _
  | none =>
    rw [Option.map_none, Option.eq_none_iff_forall_ne_some]
    rintro ⟨name, rest⟩ hp
    obtain ⟨hfree, hne, heq⟩ := placeholder?_eq_some.mp hp
    rw [enclosed_append] at heq
    have hbrace : '\x7b' ∉ name := fun hmem => absurd (hfree _ hmem) (by decide)
    match pre, hpre, heq with
    | [c], _, heq =>
      -- The name would begin with the second of the two braces.
      cases name with
      | nil => exact hne rfl
      | cons d name =>
        simp only [List.cons_append, List.nil_append, List.cons.injEq] at heq
        exact hbrace (heq.2.2.1 ▸ List.mem_cons_self)
    | c :: d :: pre, _, heq =>
      simp only [List.cons_append, List.cons.injEq] at heq
      obtain ⟨rfl, rfl, heq⟩ := heq
      rcases List.append_eq_append_iff.mp heq with ⟨more, hname, hmore⟩ | ⟨more, rfl, hmore⟩
      · cases more with
        | nil => simp at hmore
        | cons x more =>
          obtain ⟨rfl, -⟩ := List.cons.inj hmore
          exact hbrace (by simp [hname])
      · match more, hmore with
        | [], hmore => simp at hmore
        | [x], hmore => simp at hmore
        | x :: y :: more, hmore =>
          simp only [List.cons_append, List.cons.injEq] at hmore
          obtain ⟨rfl, rfl, -⟩ := hmore
          have hsome := placeholder?_enclosed hfree hne more
          rw [enclosed_append, h] at hsome
          cases hsome

/-- What stands in the place of a placeholder: its value, or itself when it has none. -/
def filled (value? : String → Option String) (name : List Char) : List Char :=
  match value? (String.ofList (Text.trimChars name)) with
  | some s => s.toList
  | none => enclosed name

theorem fillChars_placeholder (h : placeholder? cs = some (name, rest)) :
    fillChars value? cs = filled value? name ++ fillChars value? rest := by
  rw [fillChars]
  split
  next n r hp =>
    cases h.symm.trans hp
    rfl
  next hp =>
    rw [h] at hp
    cases hp

theorem fillChars_nil : fillChars value? [] = [] := by
  rw [fillChars]
  rfl

theorem fillChars_cons {c : Char} (h : placeholder? (c :: cs) = none) :
    fillChars value? (c :: cs) = c :: fillChars value? cs := by
  rw [fillChars]
  split
  next n r hp =>
    rw [h] at hp
    cases hp
  next => rfl

theorem fillChars_append_braces (pre tail : List Char) :
    fillChars value? (pre ++ '\x7b' :: '\x7b' :: tail) =
      fillChars value? pre ++ fillChars value? ('\x7b' :: '\x7b' :: tail) := by
  induction pre using fillChars.induct value? with
  | case1 pre name rest hp hlt ih =>
    have hpre : pre ≠ [] := by
      rintro rfl
      cases hp
    have hwhole := placeholder?_append_braces hpre tail
    rw [hp, Option.map_some] at hwhole
    rw [fillChars_placeholder hwhole, fillChars_placeholder hp, ih, List.append_assoc]
  | case2 => rw [fillChars_nil, List.nil_append, List.nil_append]
  | case3 c pre hp ih =>
    have hwhole := placeholder?_append_braces (List.cons_ne_nil c pre) tail
    rw [hp, Option.map_none, List.cons_append] at hwhole
    rw [List.cons_append, fillChars_cons hwhole, fillChars_cons hp, ih, List.cons_append]

theorem fillChars_append (h : IsBraceFree name) (hne : name ≠ []) (pre post : List Char) :
    fillChars value? (pre ++ (enclosed name ++ post)) =
      fillChars value? pre ++ (filled value? name ++ fillChars value? post) := by
  rw [← fillChars_placeholder (placeholder?_enclosed h hne post), enclosed_append]
  exact fillChars_append_braces pre _

theorem fillChars_eq_self
    (h : ∀ pre name post, IsBraceFree name → name ≠ [] → cs ≠ pre ++ (enclosed name ++ post)) :
    fillChars value? cs = cs := by
  induction cs with
  | nil => exact fillChars_nil
  | cons c cs ih =>
    have hnone : placeholder? (c :: cs) = none := by
      rw [Option.eq_none_iff_forall_ne_some]
      rintro ⟨name, rest⟩ hp
      obtain ⟨hfree, hne, heq⟩ := placeholder?_eq_some.mp hp
      exact h [] name rest hfree hne heq
    rw [fillChars_cons hnone, ih]
    intro pre name post hfree hne heq
    exact h (c :: pre) name post hfree hne (by rw [heq, List.cons_append])

/-- A name between two pairs of braces. -/
def placeholder (name : String) : String := "\x7b\x7b" ++ name ++ "\x7d\x7d"

def IsName (name : String) : Prop := name ≠ "" ∧ IsBraceFree name.toList

theorem toList_placeholder (name : String) : (placeholder name).toList = enclosed name.toList := by
  simp [placeholder, enclosed]

theorem IsName.toList_ne_nil {name : String} (h : IsName name) : name.toList ≠ [] := by
  intro hnil
  exact h.1 (String.toList_inj.mp hnil)

theorem toList_getD_placeholder (value? : String → Option String) (name : String) :
    ((value? (Text.trim name)).getD (placeholder name)).toList = filled value? name.toList := by
  unfold filled Text.trim
  cases value? (String.ofList (Text.trimChars name.toList)) with
  | none => exact toList_placeholder name
  | some s => rfl

end Template

namespace Context

open Template

/-- Each placeholder is filled on its own, whatever stands around it and whatever is put in for it,
and nothing else is changed. -/
theorem fill_placeholders (ctx : Context) :
    (∀ pre name post : String, IsName name →
      ctx.fill (pre ++ placeholder name ++ post) =
        ctx.fill pre ++ (ctx.lookup (Text.trim name)).getD (placeholder name) ++ ctx.fill post) ∧
    ∀ text : String,
      (∀ pre name post, IsName name → text ≠ pre ++ placeholder name ++ post) →
        ctx.fill text = text := by
  constructor
  · intro pre name post h
    rw [← String.toList_inj]
    simp only [fill, Template.fill, String.toList_append, String.toList_ofList,
      toList_placeholder, toList_getD_placeholder, List.append_assoc]
    exact fillChars_append h.2 h.toList_ne_nil pre.toList post.toList
  · intro text h
    rw [← String.toList_inj]
    simp only [fill, Template.fill, String.toList_ofList]
    apply fillChars_eq_self
    intro pre name post hfree hne heq
    have hname : IsName (String.ofList name) := by
      refine ⟨?_, by simpa using hfree⟩
      intro hempty
      apply hne
      simpa using congrArg String.toList hempty
    apply h (String.ofList pre) (String.ofList name) (String.ofList post) hname
    rw [← String.toList_inj]
    simp [heq, toList_placeholder]

/-- A value that looks like a placeholder, between stray braces. -/
theorem fill_placeholders_braces :
    let ctx : Context :=
      ⟨[], [("token", .string "\x7b\x7benv.HOME\x7d\x7d")], [("HOME", "/root")]⟩
    IsName " runtime.token " ∧
    (∀ pre name post, IsName name → "\x7d\x7d\x7b" ≠ pre ++ placeholder name ++ post) ∧
    ctx.fill ("\x7b" ++ placeholder " runtime.token " ++ "\x7d\x7d\x7b") =
      "\x7b\x7b\x7benv.HOME\x7d\x7d\x7d\x7d\x7b" := by
  intro ctx
  have hname : IsName " runtime.token " := ⟨by decide, isBraceFree_of_all (by decide)⟩
  have hopen : ctx.fill "\x7b" = "\x7b" := by decide +kernel
  have hvalue : (ctx.lookup (Text.trim " runtime.token ")).getD (placeholder " runtime.token ") =
      "\x7b\x7benv.HOME\x7d\x7d" := by decide +kernel
  have hclosed : ∀ pre name post, IsName name →
      "\x7d\x7d\x7b" ≠ pre ++ placeholder name ++ post := by
    intro pre name post h heq
    have hlength := congrArg String.length heq
    have hpos : name.length ≠ 0 := by simpa using h.1
    simp only [placeholder, String.length_append] at hlength
    change 3 = pre.length + (2 + name.length + 2) + post.length at hlength
    omega
  refine ⟨hname, hclosed, ?_⟩
  rw [(fill_placeholders ctx).1 _ _ _ hname, (fill_placeholders ctx).2 _ hclosed, hopen, hvalue]
  decide

end Context

end Assay

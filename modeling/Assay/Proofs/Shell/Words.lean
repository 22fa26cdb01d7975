import Assay.Text.Escaped
import Mathlib.Logic.Function.Basic

namespace Assay.Shell

/-- Where a reader stands in a word: outside of quotes, behind a backslash, or in single quotes. -/
inductive Quoting
  | bare
  | escaped
  | quoted

def isBlank (c : Char) : Bool := c == ' ' || c == '\t'

/-- What operators are made of. -/
def isOperator (c : Char) : Bool := ['|', '&', ';', '<', '>', '(', ')', '\n'].contains c

def endsWord (c : Char) : Bool := isBlank c || isOperator c

/-- The characters that mean just themselves outside of quotes, whatever is around them. -/
def isPlain (c : Char) : Bool :=
  c.isAlphanum || ['-', '_', '.', '/', ':', '%', '+', ',', '@'].contains c

/-- The rest of a word, and what follows it. There is none when a quote stays open, or where a
character outside of quotes may mean something else than itself. -/
def readWord : Quoting → List Char → Option (List Char × List Char)
  | .bare, [] => some ([], [])
  | .escaped, [] | .quoted, [] => none
  | .quoted, c :: cs =>
    if c = '\'' then readWord .bare cs else (readWord .quoted cs).map (Prod.map (c :: ·) id)
  | .escaped, c :: cs =>
    -- A line end behind a backslash is no part of the word, which goes on in the next line.
    if c = '\n' then readWord .bare cs else (readWord .bare cs).map (Prod.map (c :: ·) id)
  | .bare, c :: cs =>
    if c = '\'' then readWord .quoted cs
    else if c = '\\' then readWord .escaped cs
    else if endsWord c then some ([], c :: cs)
    else if isPlain c then (readWord .bare cs).map (Prod.map (c :: ·) id)
    else none

/-- A word, or an operator between two commands. -/
inductive Token
  | word (text : String)
  | operator (text : String)
deriving DecidableEq

/-- The operators that make commands run one after another, or together. -/
def readOperator : List Char → Option (List Char × List Char)
  | '&' :: '&' :: cs => some (['&', '&'], cs)
  | '|' :: '|' :: cs => some (['|', '|'], cs)
  | '|' :: cs => some (['|'], cs)
  | _ => none

def readToken (cs : List Char) : Option (Token × List Char) :=
  if cs.head?.any isOperator then
    (readOperator cs).map (Prod.map (fun w => .operator (String.ofList w)) id)
  else (readWord .bare cs).map (Prod.map (fun w => .word (String.ofList w)) id)

theorem map_eq_some {α β γ : Type} {x : Option (α × γ)} {f : α → β} {b : β} {c : γ} :
    x.map (Prod.map f id) = some (b, c) ↔ ∃ a, x = some (a, c) ∧ f a = b := by
  simp [Option.map_eq_some_iff, Prod.exists, Prod.map]

theorem length_of_readWord {mode : Quoting} {cs word rest : List Char}
    (h : readWord mode cs = some (word, rest)) : rest.length ≤ cs.length := by
  fun_induction readWord mode cs generalizing word <;> grind [map_eq_some]

theorem length_of_readOperator {cs name rest : List Char}
    (h : readOperator cs = some (name, rest)) : rest.length < cs.length := by
  unfold readOperator at h
  split at h
  · cases h
    simp only [List.length_cons]
    omega
  · cases h
    simp only [List.length_cons]
    omega
  · cases h
    exact Nat.lt_succ_self _
  · cases h

/-- A token is not empty unless it would have to begin with a blank. -/
theorem length_of_readToken {c : Char} {cs rest : List Char} {t : Token} (hc : isBlank c = false)
    (h : readToken (c :: cs) = some (t, rest)) : rest.length < (c :: cs).length := by
  unfold readToken at h
  split at h
  · obtain ⟨name, hname, -⟩ := map_eq_some.mp h
    exact length_of_readOperator hname
  · next hop =>
    obtain ⟨word, hword, -⟩ := map_eq_some.mp h
    have hends : endsWord c = false := by simpa [endsWord, hc] using hop
    simp only [readWord, hends, Bool.false_eq_true, if_false] at hword
    rw [List.length_cons, Nat.lt_succ_iff]
    split at hword
    · exact length_of_readWord hword
    · split at hword
      · exact length_of_readWord hword
      · split at hword
        · obtain ⟨_, hrest, -⟩ := map_eq_some.mp hword
          exact length_of_readWord hrest
        · cases hword

/-- The words and operators of a line. -/
def tokens (cs : List Char) : Option (List Token) :=
  match cs with
  | [] => some []
  | c :: cs =>
    if hc : isBlank c then tokens cs
    else
      match h : readToken (c :: cs) with
      | some (t, rest) =>
        have shorter := length_of_readToken (by simpa using hc) h
        (tokens rest).map (t :: ·)
      | none => none
termination_by cs.length
decreasing_by
  · exact Nat.lt_succ_self _
  · exact shorter

/-- The commands of a line, each with its arguments. -/
def commands : List Token → List (List String)
  | [] => [[]]
  | .operator _ :: ts => [] :: commands ts
  | .word w :: ts =>
    match commands ts with
    | [] => [[w]]
    | ws :: others => (w :: ws) :: others

/-- What a shell runs on a line of simple commands: the argument list of each one. -/
def invocations (line : String) : Option (List (List String)) :=
  (tokens line.toList).map commands

example : tokens "a 'b c'\\''d' && e".toList =
    some [.word "a", .word "b c'd", .operator "&&", .word "e"] := by
  decide +kernel

@[simp]
theorem endsWord_space : endsWord ' ' = true := rfl

/-- What is read as a word at the end of a line is read as that word before a blank. -/
theorem readWord_append {mode : Quoting} {cs word rest : List Char} (more : List Char)
    (h : readWord mode cs = some (word, rest)) :
    readWord mode (cs ++ ' ' :: more) = some (word, rest ++ ' ' :: more) := by
  fun_induction readWord mode cs generalizing word with
  | case1 =>
    cases h
    simp [readWord]
  | case2 | case3 => cases h
  | _ => grind [map_eq_some, readWord]

theorem readOperator_append {cs name rest : List Char} (more : List Char)
    (h : readOperator cs = some (name, rest)) :
    readOperator (cs ++ ' ' :: more) = some (name, rest ++ ' ' :: more) := by
  unfold readOperator at h
  split at h
  · cases h
    rfl
  · cases h
    rfl
  · next cs hsingle =>
    cases h
    cases rest with
    | nil => rfl
    | cons d ds =>
      have hd : d ≠ '|' := fun hd => hsingle ds (by rw [hd])
      simp [readOperator, hd]
  · cases h

theorem readToken_append {cs rest : List Char} {t : Token} (more : List Char) (hcs : cs ≠ [])
    (h : readToken cs = some (t, rest)) :
    readToken (cs ++ ' ' :: more) = some (t, rest ++ ' ' :: more) := by
  have hhead : (cs ++ ' ' :: more).head? = cs.head? := by
    cases cs with
    | nil => exact absurd rfl hcs
    | cons c cs => rfl
  unfold readToken at h ⊢
  rw [hhead]
  split at h
  · next hop =>
    obtain ⟨name, hname, rfl⟩ := map_eq_some.mp h
    rw [if_pos hop, readOperator_append more hname]
    rfl
  · next hop =>
    obtain ⟨word, hword, rfl⟩ := map_eq_some.mp h
    rw [if_neg hop, readWord_append more hword]
    rfl

@[simp]
theorem tokens_nil : tokens [] = some [] := by
  rw [tokens]

theorem tokens_blank {c : Char} (hc : isBlank c = true) (cs : List Char) :
    tokens (c :: cs) = tokens cs := by
  rw [tokens, dif_pos hc]

theorem tokens_of_readToken {c : Char} {cs rest : List Char} {t : Token} (hc : isBlank c = false)
    (h : readToken (c :: cs) = some (t, rest)) :
    tokens (c :: cs) = (tokens rest).map (t :: ·) := by
  rw [tokens, dif_neg (by simp [hc])]
  split
  · next t' rest' h' =>
    rw [h] at h'
    cases h'
    rfl
  · next h' =>
    rw [h] at h'
    cases h'

theorem tokens_append {cs : List Char} {ts : List Token} (more : List Char)
    (h : tokens cs = some ts) : tokens (cs ++ ' ' :: more) = (tokens more).map (ts ++ ·) := by
  fun_induction tokens cs generalizing ts with
  | case1 =>
    cases h
    rw [List.nil_append, tokens_blank rfl]
    simp
  | case2 c cs hc ih => rw [List.cons_append, tokens_blank hc, ih h]
  | case3 c cs hc t rest hread _ ih =>
    obtain ⟨us, hus, rfl⟩ := Option.map_eq_some_iff.mp h
    have happend := readToken_append more (List.cons_ne_nil c cs) hread
    rw [List.cons_append] at happend ⊢
    rw [tokens_of_readToken (by simpa using hc) happend, ih hus, Option.map_map]
    rfl
  | case4 => cases h

/-- What ends the word before it. -/
def Follows (rest : List Char) : Prop := ∀ c ∈ rest.head?, endsWord c

theorem readWord_of_follows {rest : List Char} (h : Follows rest) :
    readWord .bare rest = some ([], rest) := by
  cases rest with
  | nil => rfl
  | cons c cs =>
    have hc : endsWord c := h c rfl
    have hquote : c ≠ '\'' := by
      rintro rfl
      cases hc
    have hslash : c ≠ '\\' := by
      rintro rfl
      cases hc
    simp [readWord, hquote, hslash, hc]

theorem readWord_escapedQuote (rest : List Char) :
    readWord .quoted ("'\\''".toList ++ rest) =
      (readWord .quoted rest).map (Prod.map ('\'' :: ·) id) := by
  change readWord .quoted ('\'' :: '\\' :: '\'' :: '\'' :: rest) = _
  simp [readWord]

/-- The characters of a quoted text come out one by one, and its closing quote ends the quotes. -/
theorem readWord_replaceChar (cs rest : List Char) :
    readWord .quoted (Text.replaceChar '\'' "'\\''".toList cs ++ '\'' :: rest) =
      (readWord .bare rest).map (Prod.map (cs ++ ·) id) := by
  induction cs with
  | nil =>
    change readWord .bare rest = (readWord .bare rest).map id
    rw [Option.map_id, id]
  | cons c cs ih =>
    rw [Text.replaceChar, List.flatMap_cons, ← Text.replaceChar, List.append_assoc]
    by_cases hc : c = '\''
    · subst hc
      rw [if_pos rfl, readWord_escapedQuote, ih, Option.map_map]
      rfl
    · rw [if_neg hc, List.singleton_append]
      simp only [readWord, hc, if_false, ih, Option.map_map]
      rfl

theorem toList_shellQuote (s : String) :
    (shellQuote s).toList = '\'' :: (Text.replaceChar '\'' "'\\''".toList s.toList ++ ['\'']) := by
  rw [shellQuote, String.toList_ofList]

theorem readWord_shellQuote (s : String) {rest : List Char} (h : Follows rest) :
    readWord .bare ((shellQuote s).toList ++ rest) = some (s.toList, rest) := by
  have hquoted := readWord_replaceChar s.toList rest
  rw [readWord_of_follows h] at hquoted
  rw [toList_shellQuote, List.cons_append, List.append_assoc]
  simpa [readWord] using hquoted

theorem shellQuote_injective : Function.Injective shellQuote := by
  intro s t h
  have hs := @readWord_shellQuote s [] nofun
  have ht := @readWord_shellQuote t [] nofun
  rw [h, ht] at hs
  exact String.ext (congrArg Prod.fst (Option.some.inj hs)).symm

theorem tokens_of_quote {cs word rest : List Char}
    (h : readWord .bare ('\'' :: cs) = some (word, rest)) :
    tokens ('\'' :: cs) = (tokens rest).map (.word (String.ofList word) :: ·) := by
  refine tokens_of_readToken rfl ?_
  have hop : ('\'' :: cs).head?.any isOperator = false := rfl
  rw [readToken, hop, h]
  rfl

theorem tokens_shellQuote (s : String) : tokens (shellQuote s).toList = some [.word s] := by
  have hword := @readWord_shellQuote s [] nofun
  rw [List.append_nil, toList_shellQuote] at hword
  rw [toList_shellQuote, tokens_of_quote hword, String.ofList_toList, tokens_nil]
  rfl

theorem replaceChar_of_not_mem {old : Char} {new cs : List Char} (h : old ∉ cs) :
    Text.replaceChar old new cs = cs := by
  induction cs with
  | nil => rfl
  | cons c cs ih =>
    obtain ⟨hc, hcs⟩ := not_or.mp (mt List.mem_cons.mpr h)
    rw [Text.replaceChar, List.flatMap_cons, ← Text.replaceChar, ih hcs, if_neg (Ne.symm hc),
      List.singleton_append]

theorem shellQuote_eq {s : String} (h : '\'' ∉ s.toList) : shellQuote s = "'" ++ s ++ "'" := by
  apply String.ext
  rw [toList_shellQuote, replaceChar_of_not_mem h]
  simp

end Assay.Shell

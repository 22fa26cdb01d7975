import Assay.Text.Blank

namespace Assay.Template

def isBrace (c : Char) : Bool := c == '\x7b' || c == '\x7d'

/-- The inside of a placeholder that starts the text, and what follows it: two braces, characters
that are no braces, at least one of them, and two braces. -/
def placeholder? (cs : List Char) : Option (List Char × List Char) :=
  match cs with
  | '\x7b' :: '\x7b' :: r =>
    match r.dropWhile (!isBrace ·) with
    | '\x7d' :: '\x7d' :: rest =>
      if (r.takeWhile (!isBrace ·)).isEmpty then none else some (r.takeWhile (!isBrace ·), rest)
    | _ => none
  | _ => none

theorem length_dropWhile_le {α : Type} (p : α → Bool) (xs : List α) :
    (xs.dropWhile p).length ≤ xs.length := (List.dropWhile_sublist p).length_le

theorem placeholder?_length {cs name rest : List Char} (h : placeholder? cs = some (name, rest)) :
    rest.length < cs.length := by
  unfold placeholder? at h
  split at h
  · rename_i r
    split at h
    · rename_i rest' hr
      have := length_dropWhile_le (!isBrace ·) r
      split at h
      · cases h
      · cases h
        simp_all only [List.length_cons]
        omega
    · cases h
  · cases h

/-- Replace the placeholders from left to right. What is put in is not looked at again, and a
placeholder without a value stays as it is. -/
def fillChars (value? : String → Option String) (cs : List Char) : List Char :=
  match h : placeholder? cs with
  | some (name, rest) =>
    have := placeholder?_length h
    let found := value? (String.ofList (Text.trimChars name))
    (match found with
      | some s => s.toList
      | none => '\x7b' :: '\x7b' :: (name ++ ['\x7d', '\x7d'])) ++ fillChars value? rest
  | none =>
    match cs with
    | [] => []
    | c :: r => c :: fillChars value? r
termination_by cs.length

def fill (value? : String → Option String) (text : String) : String :=
  String.ofList (fillChars value? text.toList)

end Assay.Template

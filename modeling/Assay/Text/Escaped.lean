import Assay.Text.Category
import Assay.Text.Split

namespace Assay.Text

/-- Whether a character shows by itself: assigned, no control or format character, and of the
blanks only the space. -/
def isPrintable (c : Char) : Bool :=
  if c.toNat < 128 then 32 ≤ c.toNat && c.toNat < 127
  else
    match category c with
    | .control | .format | .surrogate | .privateUse | .unassigned => false
    | .lineBreak | .paragraphBreak | .space => false
    | .nonspacingMark | .enclosingMark => false
    | _ => true

def escapedChar (c : Char) : List Char :=
  if c = '"' then ['\\', '"']
  else if c = '\\' then ['\\', '\\']
  else if c = '\n' then ['\\', 'n']
  else if c = '\r' then ['\\', 'r']
  else if c = '\t' then ['\\', 't']
  else if c.toNat = 0 then ['\\', '0']
  else if isPrintable c then [c]
  else '\\' :: 'u' :: '\x7b' :: (Nat.toDigits 16 c.toNat ++ ['\x7d'])

def escaped (s : String) : String :=
  String.ofList ('"' :: (s.toList.flatMap escapedChar ++ ['"']))

def escapedList (ss : List String) : String :=
  "[" ++ String.intercalate ", " (ss.map escaped) ++ "]"

end Assay.Text

namespace Assay

/-- A text as one word of a shell command: in single quotes, with every single quote outside of
them behind a backslash. -/
def shellQuote (s : String) : String :=
  String.ofList ('\'' :: (Text.replaceChar '\'' "'\\''".toList s.toList ++ ['\'']))

end Assay

namespace Assay.Text

/-- Cut at every occurrence of a character; `n` cuts give `n + 1` pieces. -/
def splitOnChar (sep : Char) : List Char → List (List Char)
  | [] => [[]]
  | c :: cs =>
    if c = sep then [] :: splitOnChar sep cs
    else
      match splitOnChar sep cs with
      | [] => [[c]]
      | w :: ws => (c :: w) :: ws

/-- Cut at every occurrence of two adjacent characters, found from the left. -/
def splitOnPair (a b : Char) : List Char → List (List Char)
  | [] => [[]]
  | [c] => [[c]]
  | c :: d :: cs =>
    if c = a ∧ d = b then [] :: splitOnPair a b cs
    else
      match splitOnPair a b (d :: cs) with
      | [] => [[c]]
      | w :: ws => (c :: w) :: ws

def cutAt (sep : Char) : List Char → Option (List Char × List Char)
  | [] => none
  | c :: cs => if c = sep then some ([], cs) else (cutAt sep cs).map fun p => (c :: p.1, p.2)

def cutAtLast (sep : Char) (cs : List Char) : Option (List Char × List Char) :=
  (cutAt sep cs.reverse).map fun p => (p.2.reverse, p.1.reverse)

def dropPrefix (start : List Char) (cs : List Char) : Option (List Char) :=
  if start.isPrefixOf cs then some (cs.drop start.length) else none

def dropSuffix (tail : List Char) (cs : List Char) : Option (List Char) :=
  if tail.isSuffixOf cs then some (cs.take (cs.length - tail.length)) else none

def dropLast (c : Char) (cs : List Char) : List Char := (cs.reverse.dropWhile (· == c)).reverse

def occursIn (needle : List Char) : List Char → Bool
  | [] => needle.isEmpty
  | c :: cs => needle.isPrefixOf (c :: cs) || occursIn needle cs

def contains (s needle : String) : Bool := occursIn needle.toList s.toList

def startsWith (s start : String) : Bool := start.toList.isPrefixOf s.toList

def endsWith (s tail : String) : Bool := tail.toList.isSuffixOf s.toList

def dropReturn (cs : List Char) : List Char :=
  match cs.reverse with
  | '\r' :: r => r.reverse
  | _ => cs

/-- Lines ended by a line feed, each without its line end; a last line may lack one, and then
keeps a carriage return. -/
def linesOf : List (List Char) → List (List Char)
  | [] => []
  | [w] => if w.isEmpty then [] else [w]
  | w :: ws => dropReturn w :: linesOf ws

def lines (s : String) : List String :=
  (linesOf (splitOnChar '\n' s.toList)).map String.ofList

def replaceChar (old : Char) (new : List Char) (cs : List Char) : List Char :=
  cs.flatMap fun c => if c = old then new else [c]

/-- The first `limit` characters, with three dots when there are more. -/
def clip (limit : Nat) (s : String) : String :=
  let cs := s.toList
  if cs.length > limit then String.ofList (cs.take limit) ++ "..." else s

def sameIgnoringCase (a b : String) : Bool :=
  a.toList.map Char.toLower == b.toList.map Char.toLower

end Assay.Text

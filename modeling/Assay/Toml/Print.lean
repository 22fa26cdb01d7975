import Assay.Document.Fault
import Assay.Toml.Read

namespace Assay.Toml

structure TextTraits where
  singles : Nat := 0
  doubles : Nat := 0
  backslash : Bool := false
  control : Bool := false
  lineEnd : Bool := false

def longestRun (c : Char) : Nat → Nat → List Char → Nat
  | best, here, [] => max best here
  | best, here, d :: cs =>
    if d = c then longestRun c best (here + 1) cs else longestRun c (max best here) 0 cs

def traits (cs : List Char) : TextTraits where
  singles := longestRun '\'' 0 0 cs
  doubles := longestRun '"' 0 0 cs
  backslash := cs.contains '\\'
  control := cs.any fun c => isControl c && c != '\n'
  lineEnd := cs.contains '\n'

def hexUpper (n : Nat) : Char := "0123456789ABCDEF".toList.getD n '0'

/-- Characters as they stand in double quotes. Up to `free` double quotes in a row stay, and line
ends stay where several lines may be. -/
def escapeFrom (free : Nat) (several : Bool) : Nat → List Char → List Char
  | _, [] => []
  | run, c :: cs =>
    if c = '"' then
      if run < free then c :: escapeFrom free several (run + 1) cs
      else "\\u0022".toList ++ escapeFrom free several 0 cs
    else
      (if c = '\\' then ['\\', '\\']
      else if c = '\t' then ['\\', 't']
      else if c = '\n' then (if several then ['\n'] else ['\\', 'n'])
      else if c = '\r' then ['\\', 'r']
      else if c.toNat = 8 then ['\\', 'b']
      else if c.toNat = 12 then ['\\', 'f']
      else if isControl c then
        "\\u00".toList ++ [hexUpper (c.toNat / 16), hexUpper (c.toNat % 16)]
      else [c]) ++ escapeFrom free several 0 cs

def inDoubles (cs : List Char) : List Char := '"' :: (escapeFrom 0 false 0 cs ++ ['"'])

def inSingles (cs : List Char) : List Char := '\'' :: (cs ++ ['\''])

/-- Between three quotes; a text with line ends begins on a line of its own. -/
def inTriples (quote : Char) (t : TextTraits) (body : List Char) : List Char :=
  let marks := [quote, quote, quote]
  marks ++ ((if t.lineEnd then ['\n'] else []) ++ (body ++ marks))

def quote (cs : List Char) : List Char :=
  let t := traits cs
  if !t.control && !t.backslash && t.doubles = 0 && !t.lineEnd then inDoubles cs
  else if !t.control && t.singles = 0 && !t.lineEnd then inSingles cs
  else if !t.control && !t.backslash && t.doubles ≤ 2 then inTriples '"' t (escapeFrom 2 true 0 cs)
  else if !t.control && t.singles ≤ 2 then inTriples '\'' t cs
  else if t.lineEnd then inTriples '"' t (escapeFrom 2 true 0 cs)
  else inDoubles cs

def keyText (key : String) : List Char :=
  let cs := key.toList
  let t := traits cs
  if !cs.isEmpty && cs.all isKeyChar then cs
  else if !t.control && !t.backslash && t.doubles = 0 && !t.lineEnd then inDoubles cs
  else if !t.control && t.singles = 0 && !t.lineEnd then inSingles cs
  else inDoubles cs

/-- Plain writing with a point in every number. -/
def floatLayout : DecimalLayout := ⟨none, none, true, "inf", "nan"⟩

def isObject : Value → Bool
  | .object _ => true
  | _ => false

/-- Lists of objects are written as rows of tables. -/
def isRows : Value → Bool
  | .array items => !items.isEmpty && items.all isObject
  | _ => false

mutual

/-- A value in one place. There is no way to write null or an integer beyond 64 bits. -/
def inlineValue : Value → Option (List Char)
  | .null => none
  | .bool b => some (if b then "true" else "false").toList
  | .number (.int n) => if n < Nat.pow 2 63 then some (toString n).toList else none
  | .number (.float x) => some (floatLayout.write x).toList
  | .string s => some (quote s.toList)
  | .array items =>
    (inlineItems items).map fun texts =>
      match texts with
      | [] => ['[', ']']
      | [t] => '[' :: (t ++ [']'])
      | ts => '[' :: (ts.flatMap (fun t => "\n    ".toList ++ t ++ [',']) ++ ['\n', ']'])
  | .object fields =>
    (inlineFields fields).map fun texts =>
      if texts.isEmpty then ['\x7b', '\x7d']
      else "\x7b ".toList ++ (", ".toList.intercalate texts ++ " \x7d".toList)
termination_by structural v => v

def inlineItems : List Value → Option (List (List Char))
  | [] => some []
  | v :: vs => do
    let t ← inlineValue v
    let ts ← inlineItems vs
    some (t :: ts)
termination_by structural vs => vs

def inlineFields : List (String × Value) → Option (List (List Char))
  | [] => some []
  | (k, v) :: fs => do
    let t ← inlineValue v
    let ts ← inlineFields fs
    some ((keyText k ++ (" = ".toList ++ t)) :: ts)
termination_by structural fs => fs

end

def valueLines : List (String × Value) → Option (List Char)
  | [] => some []
  | (k, v) :: fs => do
    let rest ← valueLines fs
    if isObject v || isRows v then some rest
    else
      let t ← inlineValue v
      some (keyText k ++ (" = ".toList ++ (t ++ '\n' :: rest)))

def pathText (path : List String) : List Char := ['.'].intercalate (path.map keyText)

/-- A table is shown unless it holds only other tables. -/
def isShown (fields : List (String × Value)) : Bool :=
  fields.isEmpty || fields.any fun f => !(isObject f.2 || isRows f.2)

mutual

def tablesIn (path : List String) : List (String × Value) → Option (List (List Char))
  | [] => some []
  | (k, v) :: fs => do
    let here ← tableBlocks (path ++ [k]) v
    let rest ← tablesIn path fs
    some (here ++ rest)
termination_by structural fs => fs

def tableBlocks (path : List String) : Value → Option (List (List Char))
  | .object fields => do
    let lines ← valueLines fields
    let below ← tablesIn path fields
    let header := '[' :: (pathText path ++ [']', '\n'])
    some (if isShown fields then (header ++ lines) :: below else below)
  | .array items => if isRows (.array items) then rowBlocks path items else some []
  | _ => some []
termination_by structural v => v

def rowBlocks (path : List String) : List Value → Option (List (List Char))
  | [] => some []
  | v :: vs => do
    let here ← rowBlock path v
    let rest ← rowBlocks path vs
    some (here ++ rest)
termination_by structural vs => vs

def rowBlock (path : List String) : Value → Option (List (List Char))
  | .object fields => do
    let lines ← valueLines fields
    let below ← tablesIn path fields
    some ((("[[".toList ++ (pathText path ++ "]]\n".toList)) ++ lines) :: below)
  | _ => some []
termination_by structural v => v

end

/-- The fields as a document: values first, then the tables with a blank line between them. -/
def print (fields : Fields) : Option String := do
  let lines ← valueLines fields
  let tables ← tablesIn [] fields
  let blocks := if lines.isEmpty then tables else lines :: tables
  some (String.ofList (['\n'].intercalate blocks))

end Assay.Toml

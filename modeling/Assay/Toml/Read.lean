import Assay.Toml.Scalar

namespace Assay.Toml

/-- What stands under a key: a value, a table, or tables in a row. A table is implied when only
tables below it were named, and dotted when it was made by keys with points. -/
inductive Item
  | value (d : Document)
  | table (implied dotted : Bool) (items : List (String × Item))
  | tables (rows : List (List (String × Item)))

abbrev Items := List (String × Item)

def skipBlanks (cs : List Char) : List Char := cs.dropWhile isBlank

def skipComment : List Char → List Char
  | '#' :: r => r.dropWhile (· != '\n')
  | cs => cs

def skipLines : Nat → List Char → List Char
  | 0, cs => cs
  | fuel + 1, cs =>
    match skipComment (skipBlanks cs) with
    | '\n' :: r => skipLines fuel r
    | '\r' :: '\n' :: r => skipLines fuel r
    | r => r

def skipSpace (cs : List Char) : List Char := skipLines (cs.length + 1) cs

def isKeyChar (c : Char) : Bool := c.isAlphanum || c == '_' || c == '-'

def readSimpleKey (cs : List Char) : Option (String × List Char) :=
  match cs with
  | '"' :: r => readLine '"' (cs.length + 1) [] r
  | '\'' :: r => readLine '\'' (cs.length + 1) [] r
  | _ =>
    let name := cs.takeWhile isKeyChar
    if name.isEmpty then none else some (String.ofList name, cs.drop name.length)

def readKey : Nat → List Char → Option (List String × List Char)
  | 0, _ => none
  | fuel + 1, cs => do
    let (k, r) ← readSimpleKey (skipBlanks cs)
    match skipBlanks r with
    | '.' :: r =>
      let (ks, r) ← readKey fuel r
      some (k :: ks, r)
    | r => some ([k], r)

/-- Change the items of the table at a path. Tables on the way that do not exist are made. Dotted
keys may not reach into a table that has a header. -/
def descend (dotted : Bool) (change : Bool → Items → Option Items) :
    List String → Bool → Items → Option Items
  | [], isDotted, items => change isDotted items
  | k :: ks, _, items =>
    match Entries.get? items k with
    | none => (descend dotted change ks dotted []).map fun t =>
        Entries.put items k (.table true dotted t)
    | some (.value _) => none
    | some (.table implied isDotted t) =>
      if dotted && !implied then none
      else (descend dotted change ks isDotted t).map fun t =>
        Entries.put items k (.table implied isDotted t)
    | some (.tables rows) =>
      match rows.getLast? with
      | none => none
      | some row =>
        (descend dotted change ks false row).map fun t =>
          Entries.put items k (.tables (rows.dropLast ++ [t]))

def define (path : List String) (v : Document) (isDotted : Bool) (items : Items) : Option Items :=
  match path.getLast? with
  | none => none
  | some k =>
    let above := path.dropLast
    let put (isDotted : Bool) (items : Items) : Option Items :=
      if isDotted == above.isEmpty || (Entries.get? items k).isSome then none
      else some (Entries.put items k (.value v))
    descend true put above isDotted items

/-- Open a table by its header. It may have been implied before. -/
def openTable (path : List String) (root : Items) : Option Items :=
  match path.getLast? with
  | none => none
  | some k =>
    let put (_ : Bool) (items : Items) : Option Items :=
      match Entries.get? items k with
      | none => some (Entries.put items k (.table false false []))
      | some (.table true false t) => some (Entries.put items k (.table false false t))
      | _ => none
    descend false put path.dropLast false root

def openRow (path : List String) (root : Items) : Option Items :=
  match path.getLast? with
  | none => none
  | some k =>
    let put (_ : Bool) (items : Items) : Option Items :=
      match Entries.get? items k with
      | none => some (Entries.put items k (.tables [[]]))
      | some (.tables rows) => some (Entries.put items k (.tables (rows ++ [[]])))
      | _ => none
    descend false put path.dropLast false root

mutual

def Item.toDocument : Item → Document
  | .value d => d
  | .table _ _ items => .mapping (itemsToEntries items)
  | .tables rows => .sequence (rowsToDocuments rows)
termination_by structural i => i

def itemsToEntries : List (String × Item) → List (Key × Document)
  | [] => []
  | (k, i) :: is => (.text k, i.toDocument) :: itemsToEntries is
termination_by structural is => is

def rowsToDocuments : List (List (String × Item)) → List Document
  | [] => []
  | r :: rs => .mapping (itemsToEntries r) :: rowsToDocuments rs
termination_by structural rs => rs

end

mutual

def readValue (fuel : Nat) (cs : List Char) : Option (Document × List Char) :=
  match fuel with
  | 0 => none
  | fuel + 1 =>
    match cs with
    | '"' :: _ => (readQuoted '"' cs).map fun r => (.string r.1, r.2)
    | '\'' :: _ => (readQuoted '\'' cs).map fun r => (.string r.1, r.2)
    | '[' :: r => (readItems fuel (skipSpace r)).map fun r => (.sequence r.1, r.2)
    | '\x7b' :: r => do
      let (items, r) ← readEntries fuel true [] (skipBlanks r)
      some (.mapping (itemsToEntries items), r)
    | _ => readToken cs

def readItems (fuel : Nat) (cs : List Char) : Option (List Document × List Char) :=
  match fuel with
  | 0 => none
  | fuel + 1 =>
    match cs with
    | ']' :: r => some ([], r)
    | _ => do
      let (d, r) ← readValue fuel cs
      match skipSpace r with
      | ',' :: r =>
        let (ds, r) ← readItems fuel (skipSpace r)
        some (d :: ds, r)
      | ']' :: r => some ([d], r)
      | _ => none

/-- The entries of a table in braces up to its end; a comma must be followed by an entry. -/
def readEntries (fuel : Nat) (first : Bool) (items : Items) (cs : List Char) :
    Option (Items × List Char) :=
  match fuel with
  | 0 => none
  | fuel + 1 =>
    match first, cs with
    | true, '\x7d' :: r => some (items, r)
    | _, _ => do
      let (path, r) ← readKey (cs.length + 1) cs
      match r with
      | '=' :: r =>
        let (d, r) ← readValue fuel (skipBlanks r)
        let items ← define path d false items
        match skipBlanks r with
        | ',' :: r => readEntries fuel false items (skipBlanks r)
        | '\x7d' :: r => some (items, r)
        | _ => none
      | _ => none

end

/-- What may follow on a line: blanks and a comment. -/
def lineEnd (cs : List Char) : Option (List Char) :=
  match skipComment (skipBlanks cs) with
  | [] => some []
  | '\n' :: r => some r
  | '\r' :: '\n' :: r => some r
  | _ => none

/-- The lines from here on; `path` is the header they stand under. -/
def readLinesFrom : Nat → List String → Items → List Char → Option Items
  | 0, _, _, _ => none
  | fuel + 1, path, root, cs =>
    match skipSpace cs with
    | [] => some root
    | '[' :: '[' :: r => do
      let (header, r) ← readKey (r.length + 1) r
      match r with
      | ']' :: ']' :: r =>
        let root ← openRow header root
        let r ← lineEnd r
        readLinesFrom fuel header root r
      | _ => none
    | '[' :: r => do
      let (header, r) ← readKey (r.length + 1) r
      match r with
      | ']' :: r =>
        let root ← openTable header root
        let r ← lineEnd r
        readLinesFrom fuel header root r
      | _ => none
    | cs => do
      let (key, r) ← readKey (cs.length + 1) cs
      match r with
      | '=' :: r =>
        let (d, r) ← readValue (r.length + 1) (skipBlanks r)
        let root ← descend false (define key d) path false root
        let r ← lineEnd r
        readLinesFrom fuel path root r
      | _ => none

/-- The document of a text; nothing when the text is malformed. -/
def read (text : String) : Option Document := do
  let cs := text.toList
  let cs := if cs.head? = some (Char.ofNat 0xfeff) then cs.drop 1 else cs
  let items ← readLinesFrom (cs.length + 1) [] [] cs
  some (.mapping (itemsToEntries items))

end Assay.Toml

import Assay.Yaml.Block

namespace Assay.Yaml

def empty : Document := .plain ""

def keyOf : Document → Key
  | .plain s => .text s
  | .string s => .text s
  | .sequence _ => .sequence
  | .mapping _ => .mapping
  | .null => .text "null"
  | .bool b => .text (toString b)
  | .number _ => .text ""

/-- A colon that ends a key; in flow style it need not be followed by a blank. -/
def colon? (flow : Bool) (p : Place) : Option Place :=
  let p := p.skipWhile isSpace
  match p.rest with
  | ':' :: r => if flow || blankNext r then some (p.skip 1) else none
  | _ => none

def keyEnd? (flow : Bool) (start stop : Place) : Option Place :=
  if start.line = stop.line then colon? flow stop else none

mutual

def readFlow (fuel : Nat) (p : Place) : Option (Document × Place) :=
  match fuel with
  | 0 => none
  | fuel + 1 =>
    match p.rest with
    | '[' :: _ => (readFlowItems fuel ((p.skip 1).toToken true true)).map fun r =>
        (.sequence r.1, r.2)
    | '\x7b' :: _ => (readFlowEntries fuel ((p.skip 1).toToken true true)).map fun r =>
        (.mapping r.1, r.2)
    | '\'' :: _ | '"' :: _ => (readQuoted p).map fun r => (.string r.1, r.2)
    | cs =>
      if startsPlain true cs then (readPlain true 0 p).map fun r => (.plain r.1, r.2) else none

/-- The value after the colon of a key in flow style; it may be left out. -/
def readFlowValue (fuel : Nat) (p : Place) : Option (Document × Place) :=
  match fuel with
  | 0 => none
  | fuel + 1 =>
    let p := p.toToken true true
    match p.rest with
    | ',' :: _ | ']' :: _ | '\x7d' :: _ => some (empty, p)
    | _ => readFlow fuel p

/-- The items of a list in flow style up to its end. An item may be a single entry. -/
def readFlowItems (fuel : Nat) (p : Place) : Option (List Document × Place) :=
  match fuel with
  | 0 => none
  | fuel + 1 =>
    match p.rest with
    | ']' :: _ => some ([], p.skip 1)
    | _ => do
      let (d, q) ← readFlow fuel p
      let (item, q) ← match keyEnd? true p q with
        | some q => (readFlowValue fuel q).map fun r => (.mapping [(keyOf d, r.1)], r.2)
        | none => some (d, q)
      let q := q.toToken true true
      match q.rest with
      | ',' :: _ =>
        let (items, q) ← readFlowItems fuel ((q.skip 1).toToken true true)
        some (item :: items, q)
      | ']' :: _ => some ([item], q.skip 1)
      | _ => none

def readFlowEntries (fuel : Nat) (p : Place) : Option (List (Key × Document) × Place) :=
  match fuel with
  | 0 => none
  | fuel + 1 =>
    match p.rest with
    | '\x7d' :: _ => some ([], p.skip 1)
    | _ => do
      let (d, q) ← readFlow fuel p
      let (v, q) ← match keyEnd? true p q with
        | some q => readFlowValue fuel q
        | none => some (empty, q)
      let q := q.toToken true true
      match q.rest with
      | ',' :: _ =>
        let (entries, q) ← readFlowEntries fuel ((q.skip 1).toToken true true)
        some ((keyOf d, v) :: entries, q)
      | '\x7d' :: _ => some ([(keyOf d, v)], q.skip 1)
      | _ => none

end

/-- A flow node, a quoted or a plain scalar; later lines of a plain one are indented deeper than
`parent`. -/
def readInline (parent : Int) (p : Place) : Option (Document × Place) :=
  match p.rest with
  | '[' :: _ | '\x7b' :: _ => readFlow (2 * p.rest.length + 2) p
  | '\'' :: _ | '"' :: _ => (readQuoted p).map fun r => (.string r.1, r.2)
  | cs =>
    if startsPlain false cs then (readPlain false (parent + 1) p).map fun r => (.plain r.1, r.2)
    else none

def atBlock (p : Place) : Bool := p.rest.head? == some '|' || p.rest.head? == some '>'

def readLeaf (parent : Int) (p : Place) : Option (Document × Place) :=
  if atBlock p then (readBlock parent p).map fun r => (.string r.1, r.2) else readInline parent p

/-- Whether a node can stand at a token below a block of a column. The head of a block scalar may
stand in that column. -/
def isBelow (column : Nat) (p : Place) : Bool :=
  column < p.column || (column == p.column && atBlock p)

mutual

/-- A node at a token; it may be a block of its own. -/
def readNode (fuel : Nat) (parent : Int) (p : Place) : Option (Document × Place) :=
  match fuel with
  | 0 => none
  | fuel + 1 =>
    if p.atDash then (readItems fuel p.column p).map fun r => (.sequence r.1, r.2)
    else if atBlock p then readLeaf parent p
    else do
      let (d, q) ← readInline parent p
      match keyEnd? false p q with
      | some r => (readEntries fuel p.column (keyOf d) r).map fun r => (.mapping r.1, r.2)
      | none => some (d, q)

def readEntryValue (fuel : Nat) (column : Nat) (p : Place) : Option (Document × Place) :=
  match fuel with
  | 0 => none
  | fuel + 1 =>
    let q := p.toToken false true
    if q.line = p.line && !q.rest.isEmpty then
      if q.atDash then none else readLeaf column q
    else if q.atEnd then some (empty, p)
    else if q.atDash && column ≤ q.column then
      (readItems fuel q.column q).map fun r => (.sequence r.1, r.2)
    else if isBelow column q then readNode fuel column q
    else some (empty, p)

/-- The entries of a block mapping, from after the colon of the first key. -/
def readEntries (fuel : Nat) (column : Nat) (key : Key) (p : Place) :
    Option (List (Key × Document) × Place) :=
  match fuel with
  | 0 => none
  | fuel + 1 => do
    let (v, q) ← readEntryValue fuel column p
    let r := q.toToken false true
    if r.atEnd then some ([(key, v)], q)
    else if r.line = q.line && q.column != 0 then none
    else if r.column < column then some ([(key, v)], q)
    else if r.column > column || r.atDash then none
    else
      let (d, s) ← readInline column r
      let s ← keyEnd? false r s
      let (entries, s) ← readEntries fuel column (keyOf d) s
      some ((key, v) :: entries, s)

def readItems (fuel : Nat) (column : Nat) (p : Place) : Option (List Document × Place) :=
  match fuel with
  | 0 => none
  | fuel + 1 => do
    let start := p.skip 1
    let q := start.toToken false false
    let (item, q) ←
      if q.atEnd || (q.line != p.line && !isBelow column q) then some (empty, start)
      else readNode fuel column q
    let r := q.toToken false true
    if r.atEnd then some ([item], q)
    else if r.line = q.line && q.column != 0 then none
    else if r.column = column && r.atDash then
      let (items, r) ← readItems fuel column r
      some (item :: items, r)
    else if r.column > column then none
    else some ([item], q)

end

/-- Characters that no document may hold. -/
def isForbidden (c : Char) : Bool :=
  (c.toNat < 32 && !(c == '\t' || isBreak c)) || c.toNat == 127 ||
    (128 ≤ c.toNat && c.toNat < 160 && c.toNat != 0x85) || c.toNat == 0xfffe || c.toNat == 0xffff

/-- After a document nothing but one end mark may follow. -/
def nothingFollows (p : Place) : Bool :=
  let p := p.toToken false true
  match p.rest with
  | '.' :: '.' :: '.' :: _ =>
    p.atMark && ((p.skip 3).toToken false true).rest.isEmpty
  | rest => rest.isEmpty

/-- The one document of a text; nothing when the text is malformed. -/
def read (text : String) : Option Document := do
  let cs := text.toList
  let cs := if cs.head? = some (Char.ofNat 0xfeff) then cs.drop 1 else cs
  if cs.any isForbidden then none
  let fuel := 3 * cs.length + 3
  let p := (Place.start cs).toToken false false
  let marked := p.atMark && p.rest.head? == some '-'
  let start := if marked then p.skip 3 else p
  let q := start.toToken false marked
  if q.atEnd then (if nothingFollows q then some empty else none)
  else
    let (d, r) ←
      if marked && q.line = p.line then readLeaf (-1) q else readNode fuel (-1) q
    if nothingFollows r then some d else none

end Assay.Yaml

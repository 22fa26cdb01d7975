import Assay.Json.Numeral

namespace Assay.Json

/-- What a string reader is in the middle of. `lead` is a high surrogate that waits for its pair. -/
inductive StringState
  | plain
  | escape
  | hex (lead : Option Nat) (left : Nat) (value : Nat)
  | pairSlash (lead : Nat)
  | pairLetter (lead : Nat)

/-- Four bytes of hexadecimal digits must follow. -/
def hexDefect (cs : List Char) (line column : Nat) : Option Fault :=
  let size := (String.ofList cs).utf8ByteSize
  if size < 4 then some ⟨.endInString, line, column + size⟩
  else if (cs.take 4).all fun c => (hexDigit? c).isSome then none
  else some ⟨.invalidEscape, line, column + 4⟩

def simpleEscape? : Char → Option Char
  | '"' => some '"'
  | '\\' => some '\\'
  | '/' => some '/'
  | 'b' => some (Char.ofNat 8)
  | 'f' => some (Char.ofNat 12)
  | 'n' => some '\n'
  | 'r' => some '\r'
  | 't' => some '\t'
  | _ => none

def isHighSurrogate (n : Nat) : Bool := 0xd800 ≤ n && n ≤ 0xdbff

def isLowSurrogate (n : Nat) : Bool := 0xdc00 ≤ n && n ≤ 0xdfff

/-- The inside of a string up to its closing quote; `done` holds its characters, last one first. -/
def readStringFrom (line : Nat) (done : List Char) :
    StringState → List Char → Nat → Except Fault (String × Cursor)
  | _, [], column => .error ⟨.endInString, line, column⟩
  | .plain, c :: cs, column =>
    let column := column + c.utf8Size
    if c = '"' then .ok (String.ofList done.reverse, ⟨cs, line, column⟩)
    else if c = '\\' then readStringFrom line done .escape cs column
    else if c.toNat < 32 then
      .error
        (if c = '\n' then ⟨.controlCharacter, line + 1, 0⟩ else ⟨.controlCharacter, line, column⟩)
    else readStringFrom line (c :: done) .plain cs column
  | .escape, c :: cs, column =>
    let column := column + c.utf8Size
    if c = 'u' then
      match hexDefect cs line column with
      | some f => .error f
      | none => readStringFrom line done (.hex none 4 0) cs column
    else
      match simpleEscape? c with
      | some d => readStringFrom line (d :: done) .plain cs column
      | none =>
        .error (if c = '\n' then ⟨.invalidEscape, line + 1, 0⟩ else ⟨.invalidEscape, line, column⟩)
  | .hex lead left value, c :: cs, column =>
    let column := column + c.utf8Size
    let value := value * 16 + (hexDigit? c).getD 0
    if left > 1 then readStringFrom line done (.hex lead (left - 1) value) cs column
    else
      match lead with
      | some high =>
        if isLowSurrogate value then
          let code := (high - 0xd800) * 1024 + (value - 0xdc00) + 0x10000
          readStringFrom line (Char.ofNat code :: done) .plain cs column
        else .error ⟨.loneSurrogate, line, column⟩
      | none =>
        if isLowSurrogate value then .error ⟨.loneSurrogate, line, column⟩
        else if isHighSurrogate value then readStringFrom line done (.pairSlash value) cs column
        else readStringFrom line (Char.ofNat value :: done) .plain cs column
  | .pairSlash high, c :: cs, column =>
    let column := column + 1
    if c = '\\' then readStringFrom line done (.pairLetter high) cs column
    else .error ⟨.unexpectedEscapeEnd, line, column⟩
  | .pairLetter high, c :: cs, column =>
    let column := column + 1
    if c = 'u' then
      match hexDefect cs line column with
      | some f => .error f
      | none => readStringFrom line done (.hex (some high) 4 0) cs column
    else .error ⟨.unexpectedEscapeEnd, line, column⟩

def readString (c : Cursor) : Except Fault (String × Cursor) :=
  readStringFrom c.line [] .plain c.rest c.column

def readIdent (v : Value) : List Char → Cursor → Except Fault (Value × Cursor)
  | [], c => .ok (v, c)
  | x :: xs, c =>
    match c.rest with
    | [] => .error (c.here .endInValue)
    | d :: _ => if d = x then readIdent v xs c.step else .error (c.step.here .expectedIdent)

mutual

/-- One value. `depth` bounds the nesting; `fuel` exceeds the number of characters left. Objects
keep repeated keys. -/
def readValue (fuel depth : Nat) (c : Cursor) : Except Fault (Value × Cursor) :=
  match fuel with
  | 0 => .error (c.here .endInValue)
  | fuel + 1 =>
    let c := c.skipSpace
    match c.rest with
    | [] => .error (c.ahead .endInValue)
    | 'n' :: _ => readIdent .null ['u', 'l', 'l'] c.step
    | 't' :: _ => readIdent (.bool true) ['r', 'u', 'e'] c.step
    | 'f' :: _ => readIdent (.bool false) ['a', 'l', 's', 'e'] c.step
    | '-' :: _ => (readNumber false c.step).map fun p => (.number p.1, p.2)
    | '"' :: _ => (readString c.step).map fun p => (.string p.1, p.2)
    | '[' :: _ =>
      if depth ≤ 1 then .error (c.ahead .tooDeep)
      else (readItems fuel (depth - 1) true c.step).map fun p => (.array p.1, p.2)
    | '\x7b' :: _ =>
      if depth ≤ 1 then .error (c.ahead .tooDeep)
      else (readFields fuel (depth - 1) true c.step).map fun p => (.object p.1, p.2)
    | d :: _ =>
      if d.isDigit then (readNumber true c).map fun p => (.number p.1, p.2)
      else .error (c.ahead .expectedValue)

/-- The items of a list up to its end; `first` before any item was read. -/
def readItems (fuel depth : Nat) (first : Bool) (c : Cursor) :
    Except Fault (List Value × Cursor) :=
  match fuel with
  | 0 => .error (c.here .endInValue)
  | fuel + 1 =>
    let c := c.skipSpace
    let item (c : Cursor) : Except Fault (List Value × Cursor) := do
      let (v, c) ← readValue fuel depth c
      let (vs, c) ← readItems fuel depth false c
      pure (v :: vs, c)
    match c.rest with
    | [] => .error (c.ahead .endInList)
    | ']' :: _ => .ok ([], c.step)
    | d :: _ =>
      if first then item c
      else if d = ',' then
        let c := c.step.skipSpace
        match c.rest with
        | [] => .error (c.ahead .endInValue)
        | ']' :: _ => .error (c.ahead .trailingComma)
        | _ => item c
      else .error (c.ahead .expectedListCommaOrEnd)

def readFields (fuel depth : Nat) (first : Bool) (c : Cursor) :
    Except Fault (List (String × Value) × Cursor) :=
  match fuel with
  | 0 => .error (c.here .endInValue)
  | fuel + 1 =>
    let c := c.skipSpace
    let field (c : Cursor) : Except Fault (List (String × Value) × Cursor) := do
      let (k, c) ← readString c.step
      let c := c.skipSpace
      match c.rest with
      | [] => .error (c.ahead .endInObject)
      | ':' :: _ =>
        let (v, c) ← readValue fuel depth c.step
        let (fs, c) ← readFields fuel depth false c
        pure ((k, v) :: fs, c)
      | _ => .error (c.ahead .expectedColon)
    match c.rest with
    | [] => .error (c.ahead .endInObject)
    | '\x7d' :: _ => .ok ([], c.step)
    | d :: _ =>
      if first then
        if d = '"' then field c else .error (c.ahead .keyMustBeString)
      else if d = ',' then
        let c := c.step.skipSpace
        match c.rest with
        | [] => .error (c.ahead .endInValue)
        | '"' :: _ => field c
        | '\x7d' :: _ => .error (c.ahead .trailingComma)
        | _ => .error (c.ahead .keyMustBeString)
      else .error (c.ahead .expectedObjectCommaOrEnd)

end

def maxDepth : Nat := 128

/-- A whole text as one value in which objects may repeat keys. -/
def parse (text : String) : Except Fault Value := do
  let cs := text.toList
  let (v, c) ← readValue (2 * cs.length + 2) maxDepth (.start cs)
  let c := c.skipSpace
  if c.rest.isEmpty then pure v else .error (c.ahead .trailingCharacters)

/-- A whole text as one value; of repeated keys the last one counts. -/
def read (text : String) : Except Fault Value := (parse text).map Value.merged

end Assay.Json

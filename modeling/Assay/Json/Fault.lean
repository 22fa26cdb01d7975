namespace Assay.Json

inductive Defect
  | endInList
  | endInObject
  | endInString
  | endInValue
  | expectedColon
  | expectedListCommaOrEnd
  | expectedObjectCommaOrEnd
  | expectedIdent
  | expectedValue
  | invalidEscape
  | invalidNumber
  | numberOutOfRange
  | controlCharacter
  | keyMustBeString
  | loneSurrogate
  | trailingComma
  | trailingCharacters
  | unexpectedEscapeEnd
  | tooDeep

def Defect.message : Defect → String
  | endInList => "EOF while parsing a list"
  | endInObject => "EOF while parsing an object"
  | endInString => "EOF while parsing a string"
  | endInValue => "EOF while parsing a value"
  | expectedColon => "expected `:`"
  | expectedListCommaOrEnd => "expected `,` or `]`"
  | expectedObjectCommaOrEnd => "expected `,` or `\x7d`"
  | expectedIdent => "expected ident"
  | expectedValue => "expected value"
  | invalidEscape => "invalid escape"
  | invalidNumber => "invalid number"
  | numberOutOfRange => "number out of range"
  | controlCharacter => "control character (\\u0000-\\u001F) found while parsing a string"
  | keyMustBeString => "key must be a string"
  | loneSurrogate => "lone leading surrogate in hex escape"
  | trailingComma => "trailing comma"
  | trailingCharacters => "trailing characters"
  | unexpectedEscapeEnd => "unexpected end of hex escape"
  | tooDeep => "recursion limit exceeded"

/-- A defect and the place where it was noticed: lines from one, columns in bytes. -/
structure Fault where
  defect : Defect
  line : Nat
  column : Nat

def Fault.message (f : Fault) : String :=
  f.defect.message ++ " at line " ++ toString f.line ++ " column " ++ toString f.column

structure Cursor where
  rest : List Char
  line : Nat
  column : Nat

namespace Cursor

def start (cs : List Char) : Cursor := ⟨cs, 1, 0⟩

def step (c : Cursor) : Cursor :=
  match c.rest with
  | [] => c
  | d :: r => if d = '\n' then ⟨r, c.line + 1, 0⟩ else ⟨r, c.line, c.column + d.utf8Size⟩

def here (c : Cursor) (d : Defect) : Fault := ⟨d, c.line, c.column⟩

/-- A defect of the character that follows; at the end of the text, of the end. -/
def ahead (c : Cursor) (d : Defect) : Fault :=
  match c.rest with
  | [] => c.here d
  | x :: _ => if x = '\n' then ⟨d, c.line + 1, 0⟩ else ⟨d, c.line, c.column + 1⟩

def isSpace (c : Char) : Bool := c == ' ' || c == '\n' || c == '\t' || c == '\r'

def skipSpaceFrom : List Char → Nat → Nat → Cursor
  | [], line, column => ⟨[], line, column⟩
  | c :: cs, line, column =>
    if c = '\n' then skipSpaceFrom cs (line + 1) 0
    else if isSpace c then skipSpaceFrom cs line (column + 1)
    else ⟨c :: cs, line, column⟩

def skipSpace (c : Cursor) : Cursor := skipSpaceFrom c.rest c.line c.column

def digits (c : Cursor) : List Char × Cursor :=
  let ds := c.rest.takeWhile Char.isDigit
  (ds, ⟨c.rest.drop ds.length, c.line, c.column + ds.length⟩)

end Cursor

end Assay.Json

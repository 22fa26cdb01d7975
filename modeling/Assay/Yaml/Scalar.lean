import Assay.Yaml.Place

namespace Assay.Yaml

/-- A text being read: its characters, last one first, with the blanks and line breaks met since
the last of them. -/
structure Folding where
  done : List Char := []
  blanks : List Char := []
  breaks : Nat := 0
  /-- Whether the line break was escaped and so leaves no trace. -/
  escaped : Bool := false

namespace Folding

def isPending (f : Folding) : Bool := f.breaks > 0 || f.escaped || !f.blanks.isEmpty

def isNewLine (f : Folding) : Bool := f.breaks > 0 || f.escaped

def blank (f : Folding) (c : Char) : Folding :=
  if f.isNewLine then f else { f with blanks := c :: f.blanks }

def lineBreak (f : Folding) : Folding := { f with blanks := [], breaks := f.breaks + 1 }

def settle (f : Folding) : Folding :=
  let between :=
    if f.escaped then List.replicate f.breaks '\n'
    else if f.breaks > 0 then foldBreaks f.breaks
    else f.blanks
  ⟨between ++ f.done, [], 0, false⟩

def char (f : Folding) (c : Char) : Folding :=
  let f := f.settle
  { f with done := c :: f.done }

def text (f : Folding) : String := String.ofList f.done.reverse

end Folding

def isFlowMark (c : Char) : Bool :=
  c == ',' || c == '[' || c == ']' || c == '\x7b' || c == '\x7d'

/-- A plain scalar from here on. Its later lines are indented to `indent` at least, in flow style
to any column. The end is the place after its last character; nothing when it is malformed. -/
def readPlainFrom (flow : Bool) (indent : Int) : Nat → Folding → Place → Place →
    Option (String × Place)
  | 0, f, last, _ => some (f.text, last)
  | fuel + 1, f, last, p =>
    match p.rest with
    | [] => some (f.text, last)
    | c :: r =>
      if isSpace c then
        if c == '\t' && f.isNewLine && (p.column : Int) < indent then none
        else readPlainFrom flow indent fuel (f.blank c) last (p.skip 1)
      else if isBreak c then readPlainFrom flow indent fuel f.lineBreak last p.nextLine
      else if f.isNewLine && (p.atMark || (!flow && (p.column : Int) < indent)) then
        some (f.text, last)
      else if c == '#' && f.isPending then some (f.text, last)
      else if c == ':' && blankNext r then some (f.text, last)
      else if flow && c == ':' && r.head?.any isFlowMark then none
      else if flow && isFlowMark c then some (f.text, last)
      else readPlainFrom flow indent fuel (f.char c) (p.skip 1) (p.skip 1)

def readPlain (flow : Bool) (indent : Int) (p : Place) : Option (String × Place) :=
  readPlainFrom flow indent (p.rest.length + 1) {} p p

def startsPlain (flow : Bool) : List Char → Bool
  | [] => false
  | c :: r =>
    if c == '-' then !blankNext r
    else if c == '?' || c == ':' then !flow && !blankNext r
    else !isSpace c && !isBreak c && !("?:,[]\x7b\x7d#&*!|>'\"%@`".toList.contains c)

/-- A single-quoted scalar after its first quote; two quotes stand for one. -/
def readSingleFrom : Nat → Folding → Place → Option (String × Place)
  | 0, _, _ => none
  | fuel + 1, f, p =>
    match p.rest with
    | [] => none
    | '\'' :: '\'' :: _ => readSingleFrom fuel (f.char '\'') (p.skip 2)
    | '\'' :: _ => some (f.settle.text, p.skip 1)
    | c :: _ =>
      if p.atMark then none
      else if isSpace c then readSingleFrom fuel (f.blank c) (p.skip 1)
      else if isBreak c then readSingleFrom fuel f.lineBreak p.nextLine
      else readSingleFrom fuel (f.char c) (p.skip 1)

def simpleEscape? : Char → Option Char
  | '0' => some (Char.ofNat 0)
  | 'a' => some (Char.ofNat 7)
  | 'b' => some (Char.ofNat 8)
  | 't' => some '\t'
  | '\t' => some '\t'
  | 'n' => some '\n'
  | 'v' => some (Char.ofNat 11)
  | 'f' => some (Char.ofNat 12)
  | 'r' => some '\r'
  | 'e' => some (Char.ofNat 27)
  | ' ' => some ' '
  | '"' => some '"'
  | '/' => some '/'
  | '\\' => some '\\'
  | 'N' => some (Char.ofNat 0x85)
  | '_' => some (Char.ofNat 0xa0)
  | 'L' => some (Char.ofNat 0x2028)
  | 'P' => some (Char.ofNat 0x2029)
  | _ => none

def codeWidth? : Char → Option Nat
  | 'x' => some 2
  | 'u' => some 4
  | 'U' => some 8
  | _ => none

def readCode? (cs : List Char) : Option Char :=
  (readBase? 16 cs).bind fun n => if n.isValidChar then some (Char.ofNat n) else none

/-- A double-quoted scalar after its first quote. -/
def readDoubleFrom : Nat → Folding → Place → Option (String × Place)
  | 0, _, _ => none
  | fuel + 1, f, p =>
    match p.rest with
    | [] => none
    | '"' :: _ => some (f.settle.text, p.skip 1)
    | '\\' :: e :: r =>
      if isBreak e then
        let f := f.settle
        readDoubleFrom fuel { f with escaped := true } (p.skip 1).nextLine
      else
        match simpleEscape? e, codeWidth? e with
        | some c, _ => readDoubleFrom fuel (f.char c) (p.skip 2)
        | none, some width =>
          match if r.length < width then none else readCode? (r.take width) with
          | some c => readDoubleFrom fuel (f.char c) (p.skip (2 + width))
          | none => none
        | none, none => none
    | c :: _ =>
      if p.atMark then none
      else if isSpace c then readDoubleFrom fuel (f.blank c) (p.skip 1)
      else if isBreak c then readDoubleFrom fuel f.lineBreak p.nextLine
      else readDoubleFrom fuel (f.char c) (p.skip 1)

def readQuoted (p : Place) : Option (String × Place) :=
  match p.rest with
  | '\'' :: _ => readSingleFrom (p.rest.length + 1) {} (p.skip 1)
  | '"' :: _ => readDoubleFrom (p.rest.length + 1) {} (p.skip 1)
  | _ => none

end Assay.Yaml

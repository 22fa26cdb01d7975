import Assay.Document.Basic

namespace Assay.Yaml

structure Place where
  rest : List Char
  line : Nat
  column : Nat

def isBreak (c : Char) : Bool := c == '\n' || c == '\r'

def isSpace (c : Char) : Bool := c == ' ' || c == '\t'

def blankNext : List Char → Bool
  | [] => true
  | c :: _ => isSpace c || isBreak c

/-- Drop a line break; a carriage return and a line feed are one. -/
def dropBreak : List Char → List Char
  | '\r' :: '\n' :: r => r
  | _ :: r => r
  | [] => []

namespace Place

def start (cs : List Char) : Place := ⟨cs, 0, 0⟩

def skip (p : Place) (n : Nat) : Place := ⟨p.rest.drop n, p.line, p.column + n⟩

def nextLine (p : Place) : Place := ⟨dropBreak p.rest, p.line + 1, 0⟩

def skipWhile (p : Place) (test : Char → Bool) : Place := p.skip (p.rest.takeWhile test).length

/-- Three hyphens or points at the start of a line bound a document. -/
def atMark (p : Place) : Bool :=
  p.column == 0 &&
    match p.rest with
    | '-' :: '-' :: '-' :: r => blankNext r
    | '.' :: '.' :: '.' :: r => blankNext r
    | _ => false

def atEnd (p : Place) : Bool := p.rest.isEmpty || p.atMark

def atDash (p : Place) : Bool :=
  match p.rest with
  | '-' :: r => blankNext r
  | _ => false

/-- Skip blanks, comments and line ends up to the next token. Tabs may stand where `tabs` allows
them, and on later lines only in flow style. -/
def toTokenFrom (flow : Bool) : Nat → Bool → Place → Place
  | 0, _, p => p
  | fuel + 1, tabs, p =>
    let p := p.skipWhile fun c => c == ' ' || (tabs && c == '\t')
    let p := match p.rest with
      | '#' :: _ => p.skipWhile (!isBreak ·)
      | _ => p
    match p.rest with
    | c :: _ => if isBreak c then toTokenFrom flow fuel flow p.nextLine else p
    | [] => p

def toToken (p : Place) (flow tabs : Bool) : Place := toTokenFrom flow (p.rest.length + 1) tabs p

end Place

/-- Line breaks inside a folded text: one is a blank, and of several the first is dropped. -/
def foldBreaks : Nat → List Char
  | 0 => []
  | 1 => [' ']
  | n + 2 => List.replicate (n + 1) '\n'

end Assay.Yaml

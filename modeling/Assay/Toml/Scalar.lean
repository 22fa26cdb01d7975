import Assay.Document.Basic
import Assay.Toml.Moment

namespace Assay.Toml

def isBlank (c : Char) : Bool := c == ' ' || c == '\t'

/-- Control characters may not stand in a text; a tab may. -/
def isControl (c : Char) : Bool := (c.toNat < 32 && c != '\t') || c.toNat == 127

def simpleEscape? : Char → Option Char
  | 'b' => some (Char.ofNat 8)
  | 't' => some '\t'
  | 'n' => some '\n'
  | 'f' => some (Char.ofNat 12)
  | 'r' => some '\r'
  | '"' => some '"'
  | '\\' => some '\\'
  | _ => none

def readCode? (width : Nat) (cs : List Char) : Option Char :=
  if cs.length < width then none
  else
    (readBase? 16 (cs.take width)).bind fun n =>
      if n.isValidChar then some (Char.ofNat n) else none

def readEscape : List Char → Option (Char × List Char)
  | 'u' :: cs => (readCode? 4 cs).map fun c => (c, cs.drop 4)
  | 'U' :: cs => (readCode? 8 cs).map fun c => (c, cs.drop 8)
  | c :: cs => (simpleEscape? c).map fun d => (d, cs)
  | [] => none

/-- A text on one line after its opening quote; escapes count in double quotes only. -/
def readLine (quote : Char) : Nat → List Char → List Char → Option (String × List Char)
  | 0, _, _ => none
  | fuel + 1, done, cs =>
    match cs with
    | [] => none
    | c :: r =>
      if c = quote then some (String.ofList done.reverse, r)
      else if c = '\\' && quote = '"' then
        match readEscape r with
        | some (d, r) => readLine quote fuel (d :: done) r
        | none => none
      else if isControl c then none
      else readLine quote fuel (c :: done) r

/-- Blanks and line ends after a backslash at the end of a line; at least one line must end. -/
def skipContinuation (cs : List Char) : Option (List Char) :=
  let line := cs.dropWhile isBlank
  match line with
  | '\n' :: _ | '\r' :: '\n' :: _ =>
    some (line.dropWhile fun c => isBlank c || c == '\n' || c == '\r')
  | _ => none

/-- A text over several lines after its opening quotes. Up to two quotes may stand anywhere in it,
also before the three that close it. -/
def readLines (quote : Char) : Nat → List Char → List Char → Option (String × List Char)
  | 0, _, _ => none
  | fuel + 1, done, cs =>
    match cs with
    | [] => none
    | '\r' :: '\n' :: r => readLines quote fuel ('\n' :: done) r
    | c :: r =>
      if c = quote then
        let run := (cs.takeWhile (· == quote)).length
        if 5 < run then none
        else if 3 ≤ run then
          some (String.ofList (List.replicate (run - 3) quote ++ done).reverse, cs.drop run)
        else readLines quote fuel (List.replicate run quote ++ done) (cs.drop run)
      else if c = '\\' && quote = '"' then
        match skipContinuation r with
        | some r => readLines quote fuel done r
        | none =>
          match readEscape r with
          | some (d, r) => readLines quote fuel (d :: done) r
          | none => none
      else if c = '\n' then readLines quote fuel (c :: done) r
      else if isControl c then none
      else readLines quote fuel (c :: done) r

def dropLineEnd : List Char → List Char
  | '\n' :: r => r
  | '\r' :: '\n' :: r => r
  | cs => cs

def readQuoted (quote : Char) (cs : List Char) : Option (String × List Char) :=
  if (cs.take 3).all (· == quote) && 3 ≤ cs.length then
    readLines quote (cs.length + 1) [] (dropLineEnd (cs.drop 3))
  else readLine quote (cs.length + 1) [] (cs.drop 1)

/-- Digits with single underscores between them, without the underscores. -/
def digits? (isDigit : Char → Bool) (cs : List Char) : Option (List Char) :=
  let groups := Text.splitOnChar '_' cs
  if groups.all fun g => !g.isEmpty && g.all isDigit then some groups.flatten else none

def splitSign : List Char → Bool × List Char
  | '-' :: r => (true, r)
  | '+' :: r => (false, r)
  | r => (false, r)

/-- Decimal digits without a zero before others. -/
def plainDigits? (cs : List Char) : Option (List Char) :=
  (digits? Char.isDigit cs).filter fun ds => ds.length == 1 || ds.head? != some '0'

def isHexDigit (c : Char) : Bool := (hexDigit? c).isSome

def int? (token : List Char) : Option Int :=
  let n := match token with
    | '0' :: 'x' :: r => (digits? isHexDigit r).bind fun ds => (readBase? 16 ds).map Int.ofNat
    | '0' :: 'o' :: r => (digits? isHexDigit r).bind fun ds => (readBase? 8 ds).map Int.ofNat
    | '0' :: 'b' :: r => (digits? isHexDigit r).bind fun ds => (readBase? 2 ds).map Int.ofNat
    | _ =>
      let (negative, body) := splitSign token
      (plainDigits? body).map fun ds =>
        if negative then -(digitsFrom 0 ds : Int) else (digitsFrom 0 ds : Int)
  n.filter fun n => decide (-(Nat.pow 2 63 : Int) ≤ n ∧ n < Nat.pow 2 63)

def exponent? (cs : List Char) : Option Int :=
  let (negative, body) := splitSign cs
  (digits? Char.isDigit body).map fun ds =>
    if negative then -(digitsFrom 0 ds : Int) else (digitsFrom 0 ds : Int)

/-- A number with a fraction, an exponent or both, or one of the two special values. -/
def float? (token : List Char) : Option Double :=
  let (negative, body) := splitSign token
  if body = ['i', 'n', 'f'] then some (.infinite negative)
  else if body = ['n', 'a', 'n'] then some .nan
  else do
    let isMark (c : Char) : Bool := c == 'e' || c == 'E'
    let mantissa := body.takeWhile (!isMark ·)
    let tail := body.drop mantissa.length
    let exponent ← match tail with
      | [] => some 0
      | _ :: r => exponent? r
    let (whole, fraction) ← match Text.cutAt '.' mantissa with
      | some (w, f) => (digits? Char.isDigit f).map fun ds => (w, ds)
      | none => if tail.isEmpty then none else some (mantissa, [])
    let ds ← plainDigits? whole
    some (.ofDecimal negative (digitsFrom 0 (ds ++ fraction)) (exponent - fraction.length))

def isTokenChar (c : Char) : Bool :=
  c.isAlphanum || c == '+' || c == '-' || c == '_' || c == '.' || c == ':'

def readToken (cs : List Char) : Option (Document × List Char) :=
  match readMoment cs with
  | some (text, r) => some (.mapping [(.text momentKey, .string text)], r)
  | none =>
    let token := cs.takeWhile isTokenChar
    let rest := cs.drop token.length
    if token = "true".toList then some (.bool true, rest)
    else if token = "false".toList then some (.bool false, rest)
    else
      match int? token with
      | some n => some (.number (.int n), rest)
      | none => (float? token).map fun x => (.number (.float x), rest)

end Assay.Toml

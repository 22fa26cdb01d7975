import Assay.Pattern.Regex
import Assay.Number.Reading

namespace Assay.Pattern

structure Flags where
  ignoreCase : Bool := false
  multiLine : Bool := false
  dotAll : Bool := false
  returns : Bool := false
  spaced : Bool := false
  unicode : Bool := true

/-- Where a parser stands: the flags in force, the group names used and the text that follows. -/
structure Place where
  flags : Flags
  names : List String
  rest : List Char

def caseless (f : Flags) (s : CharSet) : CharSet := if f.ignoreCase then .folded s else s

inductive Item
  | literal (c : Char)
  | set (s : CharSet)
  | anchor (a : Anchor)

def skipComment : List Char → List Char
  | [] => []
  | c :: cs => if c = '\n' then cs else skipComment cs

def skipSpacedFrom : Nat → List Char → List Char
  | 0, cs => cs
  | fuel + 1, c :: cs =>
    if Text.isBlank c then skipSpacedFrom fuel cs
    else if c = '#' then skipSpacedFrom fuel (skipComment cs)
    else c :: cs
  | _ + 1, [] => []

def skipSpaced (f : Flags) (cs : List Char) : List Char :=
  if f.spaced then skipSpacedFrom (cs.length + 1) cs else cs

def charOfCode? (n : Nat) : Option Char :=
  if n.isValidChar then some (Char.ofNat n) else none

/-- The hexadecimal number of a character: in braces, or of exactly `width` digits. -/
def parseHex (width : Nat) (cs : List Char) : Option (Char × List Char) :=
  match cs with
  | '\x7b' :: r => do
    let (ds, after) ← Text.cutAt '\x7d' r
    let n ← readBase? 16 ds
    let c ← charOfCode? n
    pure (c, after)
  | _ => do
    let ds := cs.take width
    if ds.length = width then
      let n ← readBase? 16 ds
      let c ← charOfCode? n
      pure (c, cs.drop width)
    else none

def categoriesNamed (name : String) : Option (List Text.Category) :=
  match name with
  | "lu" | "uppercaseletter" => some [.upper]
  | "ll" | "lowercaseletter" => some [.lower]
  | "lt" | "titlecaseletter" => some [.title]
  | "lm" | "modifierletter" => some [.modifierLetter]
  | "lo" | "otherletter" => some [.otherLetter]
  | "l" | "letter" => some [.upper, .lower, .title, .modifierLetter, .otherLetter]
  | "lc" | "casedletter" => some [.upper, .lower, .title]
  | "mn" | "nonspacingmark" => some [.nonspacingMark]
  | "mc" | "spacingmark" => some [.spacingMark]
  | "me" | "enclosingmark" => some [.enclosingMark]
  | "m" | "mark" | "combiningmark" => some [.nonspacingMark, .spacingMark, .enclosingMark]
  | "nd" | "decimalnumber" | "digit" => some [.decimal]
  | "nl" | "letternumber" => some [.letterNumber]
  | "no" | "othernumber" => some [.otherNumber]
  | "n" | "number" => some [.decimal, .letterNumber, .otherNumber]
  | "pc" | "connectorpunctuation" => some [.connector]
  | "pd" | "dashpunctuation" => some [.dash]
  | "ps" | "openpunctuation" => some [.openBracket]
  | "pe" | "closepunctuation" => some [.closeBracket]
  | "pi" | "initialpunctuation" => some [.openQuote]
  | "pf" | "finalpunctuation" => some [.closeQuote]
  | "po" | "otherpunctuation" => some [.otherPunctuation]
  | "p" | "punctuation" | "punct" =>
    some [.connector, .dash, .openBracket, .closeBracket, .openQuote, .closeQuote,
      .otherPunctuation]
  | "sm" | "mathsymbol" => some [.math]
  | "sc" | "currencysymbol" => some [.currency]
  | "sk" | "modifiersymbol" => some [.modifierSymbol]
  | "so" | "othersymbol" => some [.otherSymbol]
  | "s" | "symbol" => some [.math, .currency, .modifierSymbol, .otherSymbol]
  | "zs" | "spaceseparator" => some [.space]
  | "zl" | "lineseparator" => some [.lineBreak]
  | "zp" | "paragraphseparator" => some [.paragraphBreak]
  | "z" | "separator" => some [.space, .lineBreak, .paragraphBreak]
  | "cc" | "control" | "cntrl" => some [.control]
  | "cf" | "format" => some [.format]
  | "co" | "privateuse" => some [.privateUse]
  | "cn" | "unassigned" => some [.unassigned]
  | "c" | "other" => some [.control, .format, .surrogate, .privateUse, .unassigned]
  | _ => none

/-- A named property. Case, blanks, hyphens and underscores in the name do not count. -/
def propertyNamed (name : List Char) : Option CharSet :=
  let plain := (name.filter fun c => c != ' ' && c != '-' && c != '_').map Char.toLower
  let key := match Text.cutAt '=' plain with
    | some (kind, v) => if kind == "gc".toList || kind == "generalcategory".toList then v else plain
    | none => plain
  match String.ofList key with
  | "any" => some .all
  | "ascii" => some (.range 0 127)
  | "assigned" => some (.kind .assigned)
  | "alphabetic" | "alpha" => some (.kind .alphabetic)
  | "lowercase" | "lower" => some (.kind .lowercase)
  | "uppercase" | "upper" => some (.kind .uppercase)
  | "whitespace" | "wspace" | "space" => some (.kind .blank)
  | name =>
    (categoriesNamed name).map fun ks =>
      ks.foldl (fun s k => CharSet.union s (.kind (.category k))) .none

/-- A property after its letter: one letter, or a name in braces that a caret negates. -/
def parseProperty (f : Flags) (negated : Bool) : List Char → Option (CharSet × List Char)
  | '\x7b' :: cs => do
    let (name, rest) ← Text.cutAt '\x7d' cs
    let (negated, name) := match name with
      | '^' :: r => (!negated, r)
      | _ => (negated, name)
    let s ← propertyNamed name
    let s := caseless f s
    pure (if negated then .compl s else s, rest)
  | c :: cs => do
    let s ← propertyNamed [c]
    let s := caseless f s
    pure (if negated then .compl s else s, cs)
  | [] => none

def perlKind (f : Flags) : Char → Option CharKind
  | 'd' | 'D' => some (if f.unicode then .decimal else .asciiDecimal)
  | 's' | 'S' => some (if f.unicode then .blank else .asciiBlank)
  | 'w' | 'W' => some (if f.unicode then .word else .asciiWord)
  | _ => none

def parseBoundary (f : Flags) (cs : List Char) : Anchor × List Char :=
  let plain := (if f.unicode then Anchor.boundary else .asciiBoundary, cs)
  match cs with
  | '\x7b' :: r =>
    match Text.cutAt '\x7d' r with
    | some (name, rest) =>
      match String.ofList name with
      | "start" => (.wordStart, rest)
      | "end" => (.wordEnd, rest)
      | "start-half" => (.wordStartHalf, rest)
      | "end-half" => (.wordEndHalf, rest)
      | _ => plain
    | none => plain
  | _ => plain

def parseEscape (f : Flags) : List Char → Option (Item × List Char)
  | [] => none
  | c :: cs =>
    match perlKind f c with
    | some k => some (.set (if c.isUpper then .compl (.kind k) else .kind k), cs)
    | none =>
      match c with
      | 'p' => (parseProperty f false cs).map fun p => (.set p.1, p.2)
      | 'P' => (parseProperty f true cs).map fun p => (.set p.1, p.2)
      | 'x' => (parseHex 2 cs).map fun p => (.literal p.1, p.2)
      | 'u' => (parseHex 4 cs).map fun p => (.literal p.1, p.2)
      | 'U' => (parseHex 8 cs).map fun p => (.literal p.1, p.2)
      | 'a' => some (.literal (Char.ofNat 7), cs)
      | 'f' => some (.literal (Char.ofNat 12), cs)
      | 't' => some (.literal '\t', cs)
      | 'n' => some (.literal '\n', cs)
      | 'r' => some (.literal '\r', cs)
      | 'v' => some (.literal (Char.ofNat 11), cs)
      | 'A' => some (.anchor .textStart, cs)
      | 'z' => some (.anchor .textEnd, cs)
      | 'b' => let (a, r) := parseBoundary f cs; some (.anchor a, r)
      | 'B' => some (.anchor (if f.unicode then .notBoundary else .asciiNotBoundary), cs)
      | '<' => some (.anchor .wordStart, cs)
      | '>' => some (.anchor .wordEnd, cs)
      | c => if c.toNat < 128 && !c.isAlphanum then some (.literal c, cs) else none

def asciiClass (name : String) : Option CharSet :=
  (match name with
  | "alnum" => some [(48, 57), (65, 90), (97, 122)]
  | "alpha" => some [(65, 90), (97, 122)]
  | "ascii" => some [(0, 127)]
  | "blank" => some [(9, 9), (32, 32)]
  | "cntrl" => some [(0, 31), (127, 127)]
  | "digit" => some [(48, 57)]
  | "graph" => some [(33, 126)]
  | "lower" => some [(97, 122)]
  | "print" => some [(32, 126)]
  | "punct" => some [(33, 47), (58, 64), (91, 96), (123, 126)]
  | "space" => some [(9, 13), (32, 32)]
  | "upper" => some [(65, 90)]
  | "word" => some [(48, 57), (65, 90), (95, 95), (97, 122)]
  | "xdigit" => some [(48, 57), (65, 70), (97, 102)]
  | _ => none : Option (List (Nat × Nat))).map CharSet.ofRanges

def parseAsciiClass (f : Flags) : List Char → Option (CharSet × List Char)
  | ':' :: cs => do
    let (negated, cs) := match cs with
      | '^' :: r => (true, r)
      | _ => (false, cs)
    let (name, rest) ← Text.cutAt ':' cs
    let s ← asciiClass (String.ofList name)
    let s := caseless f s
    match rest with
    | ']' :: r => pure (if negated then .compl s else s, r)
    | _ => none
  | _ => none

def literalSet (f : Flags) (c : Char) : CharSet := caseless f (.char c)

def parseBracketItem (f : Flags) : List Char → Option (Item × List Char)
  | [] => none
  | '\\' :: cs => parseEscape f cs
  | c :: cs => some (.literal c, cs)

def parseBracketRange (f : Flags) (cs : List Char) : Option (CharSet × List Char) := do
  let (item, cs) ← parseBracketItem f cs
  let cs := skipSpaced f cs
  let single : Option (CharSet × List Char) :=
    match item with
    | .literal c => some (literalSet f c, cs)
    | .set s => some (s, cs)
    | .anchor _ => none
  match cs with
  | [] => none
  | '-' :: r =>
    match skipSpaced f r with
    | ']' :: _ | '-' :: _ => single
    | r => do
      let (last, r) ← parseBracketItem f r
      match item, last with
      | .literal a, .literal b =>
        if a.toNat ≤ b.toNat then pure (caseless f (.range a.toNat b.toNat), r) else none
      | _, _ => none
  | _ => single

inductive SetOperator
  | inter
  | diff
  | symmetric

def SetOperator.apply (a b : CharSet) : SetOperator → CharSet
  | inter => .inter a b
  | diff => .diff a b
  | symmetric => .union (.diff a b) (.diff b a)

/-- The operand before an operator, if any, and the items of the operand being read. -/
structure BracketState where
  left : Option (CharSet × SetOperator) := none
  items : CharSet := .none

def BracketState.close (b : BracketState) : CharSet :=
  match b.left with
  | none => b.items
  | some (a, op) => op.apply a b.items

def BracketState.add (b : BracketState) (s : CharSet) : BracketState :=
  { b with items := .union b.items s }

def BracketState.operator (b : BracketState) (op : SetOperator) : BracketState :=
  { left := some (b.close, op) }

def dropDashes (f : Flags) : Nat → List Char → BracketState → BracketState × List Char
  | fuel + 1, '-' :: cs, b => dropDashes f fuel (skipSpaced f cs) (b.add (literalSet f '-'))
  | _, cs, b => (b, cs)

/-- The start of a bracket: a caret negates, hyphens and a bracket right after it are literal. -/
def openBracket (f : Flags) (cs : List Char) : Bool × BracketState × List Char :=
  let cs := skipSpaced f cs
  let (negated, cs) := match cs with
    | '^' :: r => (true, skipSpaced f r)
    | _ => (false, cs)
  let (b, cs) := dropDashes f cs.length cs {}
  match b.items, cs with
  | .none, ']' :: r => (negated, b.add (literalSet f ']'), r)
  | _, _ => (negated, b, cs)

def parseBracket (f : Flags) : Nat → Bool → BracketState → List Char → Option (CharSet × List Char)
  | 0, _, _, _ => none
  | fuel + 1, negated, b, cs =>
    match skipSpaced f cs with
    | [] => none
    | ']' :: r => some (if negated then .compl b.close else b.close, r)
    | '[' :: r =>
      match parseAsciiClass f r with
      | some (s, r) => parseBracket f fuel negated (b.add s) r
      | none => do
        let (inner, start, r) := openBracket f r
        let (s, r) ← parseBracket f fuel inner start r
        parseBracket f fuel negated (b.add s) r
    | '&' :: '&' :: r => parseBracket f fuel negated (b.operator .inter) r
    | '-' :: '-' :: r => parseBracket f fuel negated (b.operator .diff) r
    | '~' :: '~' :: r => parseBracket f fuel negated (b.operator .symmetric) r
    | cs => do
      let (s, r) ← parseBracketRange f cs
      parseBracket f fuel negated (b.add s) r

def parseCount (cs : List Char) : Option Nat × List Char :=
  let cs := cs.dropWhile Text.isBlank
  let ds := cs.takeWhile Char.isDigit
  ((readNat? ds).filter (· < Nat.pow 2 32), (cs.drop ds.length).dropWhile Text.isBlank)

def parseBounds (f : Flags) (cs : List Char) : Option (Nat × Option Nat × List Char) :=
  let (min, cs) := parseCount (skipSpaced f cs)
  match skipSpaced f cs with
  | '\x7d' :: r => min.map fun n => (n, some n, r)
  | ',' :: r =>
    match skipSpaced f r with
    | '\x7d' :: r => min.map fun n => (n, none, r)
    | r =>
      let (max, r) := parseCount r
      match max, skipSpaced f r with
      | some m, '\x7d' :: r =>
        let n := min.getD 0
        if n ≤ m then some (n, some m, r) else none
      | _, _ => none
  | _ => none

/-- What was read of a concatenation, last part first; switches are no operand of a repetition. -/
inductive Part
  | regex (r : Regex)
  | switch

def concat (parts : List Part) : Regex :=
  parts.foldl (fun r p => match p with
    | .switch => r
    | .regex a => if r = .empty then a else .seq a r) .empty

/-- The last part under a repetition. A question mark after the operator changes nothing here. -/
def repeatLast (min : Nat) (max : Option Nat) (parts : List Part) (rest : List Char) :
    Option (List Part × List Char) :=
  let rest := match rest with
    | '?' :: r => r
    | _ => rest
  match parts with
  | .regex r :: ps => some (.regex (.repetition r min max) :: ps, rest)
  | _ => none

def itemRegex (f : Flags) : Item → Regex
  | .literal c => .char (literalSet f c)
  | .set s => .char s
  | .anchor a => .anchor a

def dotSet (f : Flags) : CharSet :=
  if f.dotAll then .all
  else if f.returns then .compl (.union (.char '\n') (.char '\r'))
  else .compl (.char '\n')

def caret (f : Flags) : Anchor :=
  if f.multiLine then (if f.returns then .lineStartReturn else .lineStart) else .textStart

def dollar (f : Flags) : Anchor :=
  if f.multiLine then (if f.returns then .lineEndReturn else .lineEnd) else .textEnd

def setFlag (f : Flags) (on : Bool) : Char → Option Flags
  | 'i' => some { f with ignoreCase := on }
  | 'm' => some { f with multiLine := on }
  | 's' => some { f with dotAll := on }
  | 'R' => some { f with returns := on }
  | 'x' => some { f with spaced := on }
  | 'u' => some { f with unicode := on }
  | 'U' => some f
  | _ => none

/-- Flag letters up to a colon or a bracket: the new flags, whether a group follows, and the rest.
A letter stands once, a minus once and not last. -/
def parseFlags (f : Flags) (seen : List Char) (on : Bool) :
    List Char → Option (Flags × Bool × List Char)
  | [] => none
  | c :: cs =>
    let pending := seen.head? == some '-'
    if c = ':' then (if pending then none else some (f, true, cs))
    else if c = ')' then (if pending || seen.isEmpty then none else some (f, false, cs))
    else if seen.contains c then none
    else if c = '-' then parseFlags f (c :: seen) false cs
    else (setFlag f on c).bind fun f => parseFlags f (c :: seen) on cs

def isNameChar (first : Bool) (c : Char) : Bool :=
  c == '_' || (!first && (c == '.' || c == '[' || c == ']' || (CharKind.has c .decimal) ||
    (Text.category c == .letterNumber) || (Text.category c == .otherNumber))) ||
    CharKind.has c .alphabetic

def parseName (names : List String) (cs : List Char) : Option (String × List Char) := do
  let (name, rest) ← Text.cutAt '>' cs
  let s := String.ofList name
  match name with
  | [] => none
  | c :: cs =>
    if isNameChar true c && cs.all (isNameChar false) && !names.contains s then pure (s, rest)
    else none

mutual

/-- Alternatives up to the end of the text or of the group. `parts` were read of the alternative
under way, `done` are the alternatives before it, last one first. -/
def parseParts (fuel : Nat) (depth : Nat) (done : List Regex) (parts : List Part) (p : Place) :
    Option (Regex × Place) :=
  match fuel with
  | 0 => none
  | fuel + 1 =>
    let finish : Regex := done.foldl (fun r a => .alt a r) (concat parts)
    match skipSpaced p.flags p.rest with
    | [] => if depth = 0 then some (finish, { p with rest := [] }) else none
    | ')' :: r => if depth = 0 then none else some (finish, { p with rest := r })
    | '|' :: r => parseParts fuel depth (concat parts :: done) [] { p with rest := r }
    | '(' :: r => do
      let (part, p) ← parseGroup fuel depth { p with rest := skipSpaced p.flags r }
      parseParts fuel depth done (part :: parts) p
    | '[' :: r => do
      let (negated, b, r) := openBracket p.flags r
      let (s, r) ← parseBracket p.flags (r.length + 1) negated b r
      parseParts fuel depth done (.regex (.char s) :: parts) { p with rest := r }
    | '*' :: r => do
      let (parts, r) ← repeatLast 0 none parts r
      parseParts fuel depth done parts { p with rest := r }
    | '+' :: r => do
      let (parts, r) ← repeatLast 1 none parts r
      parseParts fuel depth done parts { p with rest := r }
    | '?' :: r => do
      let (parts, r) ← repeatLast 0 (some 1) parts r
      parseParts fuel depth done parts { p with rest := r }
    | '\x7b' :: r => do
      let (min, max, r) ← parseBounds p.flags r
      let (parts, r) ← repeatLast min max parts r
      parseParts fuel depth done parts { p with rest := r }
    | '.' :: r =>
      parseParts fuel depth done (.regex (.char (dotSet p.flags)) :: parts) { p with rest := r }
    | '^' :: r =>
      parseParts fuel depth done (.regex (.anchor (caret p.flags)) :: parts) { p with rest := r }
    | '$' :: r =>
      parseParts fuel depth done (.regex (.anchor (dollar p.flags)) :: parts) { p with rest := r }
    | '\\' :: r => do
      let (item, r) ← parseEscape p.flags r
      parseParts fuel depth done (.regex (itemRegex p.flags item) :: parts) { p with rest := r }
    | c :: r =>
      parseParts fuel depth done (.regex (.char (literalSet p.flags c)) :: parts)
        { p with rest := r }

/-- A group or a switch after its opening bracket. The flags of a group end with it. -/
def parseGroup (fuel : Nat) (depth : Nat) (p : Place) : Option (Part × Place) :=
  match fuel with
  | 0 => none
  | fuel + 1 =>
    let inside (names : List String) (flags : Flags) (cs : List Char) : Option (Part × Place) := do
      let (r, q) ← parseParts fuel (depth + 1) [] [] ⟨flags, names, cs⟩
      pure (.regex r, { q with flags := p.flags })
    match p.rest with
    | '?' :: '=' :: _ | '?' :: '!' :: _ | '?' :: '<' :: '=' :: _ | '?' :: '<' :: '!' :: _ => none
    | '?' :: 'P' :: '<' :: r | '?' :: '<' :: r => do
      let (name, r) ← parseName p.names r
      inside (name :: p.names) p.flags r
    | '?' :: r => do
      let (flags, grouped, r) ← parseFlags p.flags [] true r
      if grouped then inside p.names flags r
      else pure (.switch, ⟨flags, p.names, r⟩)
    | r => inside p.names p.flags r

end

/-- A pattern as a regular expression; nothing when it is not well formed. -/
def parse (pattern : String) : Option Regex :=
  let cs := pattern.toList
  (parseParts (2 * cs.length + 2) 0 [] [] ⟨{}, [], cs⟩).map Prod.fst

end Assay.Pattern

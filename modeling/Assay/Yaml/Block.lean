import Assay.Yaml.Scalar

namespace Assay.Yaml

inductive Chomping
  | strip
  | clip
  | keep
deriving DecidableEq

/-- The head of a block scalar: whether lines are folded, what happens at the end, and an explicit
indentation. -/
structure BlockHead where
  folded : Bool
  chomping : Chomping := .clip
  indent : Option Nat := none

/-- The indicators after the first one, each at most once. -/
def readIndicators (h : BlockHead) (chomped : Bool) : List Char → Option (BlockHead × List Char)
  | [] => some (h, [])
  | c :: cs =>
    if (c == '+' || c == '-') && !chomped then
      readIndicators { h with chomping := if c == '+' then .keep else .strip } true cs
    else if c.isDigit && h.indent.isNone then
      if c == '0' then none
      else readIndicators { h with indent := some (c.toNat - 48) } chomped cs
    else some (h, c :: cs)

/-- The head with its line: only blanks and a comment may follow it. -/
def readHead (p : Place) : Option (BlockHead × Place) := do
  let folded ← match p.rest.head? with
    | some '|' => some false
    | some '>' => some true
    | _ => none
  let (h, rest) ← readIndicators ⟨folded, .clip, none⟩ false (p.rest.drop 1)
  let rest := rest.dropWhile isSpace
  let rest := match rest with
    | '#' :: _ => rest.dropWhile (!isBreak ·)
    | _ => rest
  match rest with
  | [] => some (h, ⟨[], p.line + 1, 0⟩)
  | c :: _ => if isBreak c then some (h, ⟨dropBreak rest, p.line + 1, 0⟩) else none

/-- The indentation of the first line that is not blank, `least` at least. Blank lines before it
that are longer count, and a tab may not stand for it. -/
def detectIndent (least : Nat) : Nat → Nat → List Char → Option Nat
  | 0, longest, _ => some (max least longest)
  | fuel + 1, longest, cs =>
    let spaces := (cs.takeWhile (· == ' ')).length
    match cs.drop spaces with
    | [] => some (max least (max longest spaces))
    | c :: r =>
      if c == '\t' then none
      else if isBreak c then detectIndent least fuel (max longest spaces) (dropBreak (c :: r))
      else some (max least (max longest spaces))

structure BlockText where
  done : List Char := []
  /-- Whether the last line read has ended. -/
  ended : Bool := false
  /-- Blank lines since then. -/
  blankLines : Nat := 0
  /-- Whether the last line began with a blank. -/
  spaced : Bool := false

namespace BlockText

def line (t : BlockText) (folded : Bool) (content : List Char) (ended : Bool) : BlockText :=
  let spaced := content.head?.any isSpace
  let joint :=
    if !t.ended then []
    else if folded && !t.spaced && !spaced then (if t.blankLines = 0 then [' '] else [])
    else ['\n']
  ⟨content.reverse ++ (List.replicate t.blankLines '\n' ++ (joint ++ t.done)), ended, 0, spaced⟩

def finish (t : BlockText) (c : Chomping) : String :=
  let last := if t.ended && c != .strip then ['\n'] else []
  let blanks := if c = .keep then List.replicate t.blankLines '\n' else []
  String.ofList (blanks ++ (last ++ t.done)).reverse

end BlockText

/-- The lines of a block scalar: those indented to `indent`, and blank ones between them. -/
def readBlockLines (h : BlockHead) (indent : Nat) : Nat → BlockText → Place →
    Option (String × Place)
  | 0, t, p => some (t.finish h.chomping, p)
  | fuel + 1, t, p =>
    let spaces := ((p.rest.take indent).takeWhile (· == ' ')).length
    match p.rest.drop spaces with
    | [] => some (t.finish h.chomping, p)
    | c :: r =>
      if isBreak c then
        readBlockLines h indent fuel { t with blankLines := t.blankLines + 1 }
          ⟨dropBreak (c :: r), p.line + 1, 0⟩
      else if spaces < indent then
        if c == '\t' then none else some (t.finish h.chomping, p)
      else
        let content := (c :: r).takeWhile (!isBreak ·)
        match (c :: r).drop content.length with
        | [] => some ((t.line h.folded content false).finish h.chomping, ⟨[], p.line + 1, 0⟩)
        | rest =>
          readBlockLines h indent fuel (t.line h.folded content true)
            ⟨dropBreak rest, p.line + 1, 0⟩

/-- A block scalar at its first indicator, below a block indented to `parent`. -/
def readBlock (parent : Int) (p : Place) : Option (String × Place) := do
  let (h, p) ← readHead p
  let least := max (parent + 1) 1
  let indent ← match h.indent with
    | some n => some ((max parent 0) + n).toNat
    | none => detectIndent least.toNat (p.rest.length + 1) 0 p.rest
  readBlockLines h indent (p.rest.length + 1) {} p

end Assay.Yaml

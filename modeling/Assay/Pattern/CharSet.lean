import Assay.Text.Blank
import Assay.Text.Case

namespace Assay.Pattern

inductive CharKind
  | decimal
  | blank
  | word
  | asciiDecimal
  | asciiBlank
  | asciiWord
  | category (c : Text.Category)
  | lowercase
  | uppercase
  | alphabetic
  | assigned
deriving DecidableEq

def CharKind.has (c : Char) : CharKind → Bool
  | decimal => Text.isDecimal c
  | blank => Text.isBlank c
  | word => Text.isWordChar c
  | asciiDecimal => c.isDigit
  | asciiBlank => c == ' ' || (9 ≤ c.toNat && c.toNat ≤ 13)
  | asciiWord => c.isAlphanum || c == '_'
  | category k => Text.category c == k
  | lowercase => Text.category c == .lower
  | uppercase => Text.category c == .upper
  | alphabetic => (Text.category c).isLetter || Text.category c == .letterNumber
  | assigned => Text.category c != .unassigned

inductive CharSet
  | none
  | range (low high : Nat)
  | kind (k : CharKind)
  | folded (s : CharSet)
  | union (a b : CharSet)
  | inter (a b : CharSet)
  | diff (a b : CharSet)
  | compl (a : CharSet)
deriving DecidableEq

def shiftedTo (runs : Array Text.CaseRun) (c : Char) : List Char :=
  runs.toList.filterMap fun r =>
    let d := Char.ofNat ((c.toNat : Int) - r.shift).toNat
    if r.start ≤ d.toNat ∧ Text.shiftBy runs d = c ∧ d ≠ c then some d else Option.none

def caseVariants (c : Char) : List Char :=
  if c.toNat < 128 ∧ c.toLower ≠ 'k' ∧ c.toLower ≠ 's' then [c.toLower, c.toUpper]
  else
    let low := Text.foldChar c
    let uppers := low :: Text.upperChar low :: shiftedTo Text.lowerRuns low
    let all := c :: uppers ++ uppers.flatMap (shiftedTo Text.upperRuns)
    all.filter fun d => Text.foldChar d == low

namespace CharSet

def has (c : Char) : CharSet → Bool
  | none => false
  | range low high => low ≤ c.toNat && c.toNat ≤ high
  | kind k => k.has c
  | folded s => s.has c || (caseVariants c).any fun d => hasUnfolded d s
  | union a b => a.has c || b.has c
  | inter a b => a.has c && b.has c
  | diff a b => a.has c && !b.has c
  | compl a => !a.has c
where
  /-- Membership for what stands under `folded`: a range or a kind. -/
  hasUnfolded (d : Char) : CharSet → Bool
    | range low high => low ≤ d.toNat && d.toNat ≤ high
    | kind k => k.has d
    | _ => false

def char (c : Char) : CharSet := range c.toNat c.toNat

def all : CharSet := compl none

def ofRanges : List (Nat × Nat) → CharSet
  | [] => none
  | [r] => range r.1 r.2
  | r :: rs => union (range r.1 r.2) (ofRanges rs)

end CharSet

end Assay.Pattern

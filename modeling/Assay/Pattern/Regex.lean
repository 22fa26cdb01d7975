import Assay.Pattern.CharSet

namespace Assay.Pattern

inductive Anchor
  | textStart
  | textEnd
  | lineStart
  | lineEnd
  | lineStartReturn
  | lineEndReturn
  | boundary
  | notBoundary
  | asciiBoundary
  | asciiNotBoundary
  | wordStart
  | wordEnd
  | wordStartHalf
  | wordEndHalf
deriving DecidableEq

def wordAt (k : CharKind) (c : Option Char) : Bool := c.any k.has

/-- Whether an anchor holds between two neighbours; a missing one is an end of the text. -/
def Anchor.holds (before after : Option Char) : Anchor → Bool
  | textStart => before.isNone
  | textEnd => after.isNone
  | lineStart => before.isNone || before == some '\n'
  | lineEnd => after.isNone || after == some '\n'
  | lineStartReturn =>
    before.isNone || before == some '\n' || (before == some '\r' && after != some '\n')
  | lineEndReturn =>
    after.isNone || after == some '\r' || (after == some '\n' && before != some '\r')
  | boundary => wordAt .word before != wordAt .word after
  | notBoundary => wordAt .word before == wordAt .word after
  | asciiBoundary => wordAt .asciiWord before != wordAt .asciiWord after
  | asciiNotBoundary => wordAt .asciiWord before == wordAt .asciiWord after
  | wordStart => !wordAt .word before && wordAt .word after
  | wordEnd => wordAt .word before && !wordAt .word after
  | wordStartHalf => !wordAt .word before
  | wordEndHalf => !wordAt .word after

inductive Regex
  | empty
  | char (s : CharSet)
  | anchor (a : Anchor)
  | seq (a b : Regex)
  | alt (a b : Regex)
  | repetition (a : Regex) (min : Nat) (max : Option Nat)
deriving DecidableEq

namespace Regex

/-- Whether the empty text between two neighbours matches. -/
def nullable (before after : Option Char) : Regex → Bool
  | empty => true
  | char _ => false
  | anchor a => a.holds before after
  | seq a b => a.nullable before after && b.nullable before after
  | alt a b => a.nullable before after || b.nullable before after
  | repetition a min _ => min == 0 || a.nullable before after

def andThen : Regex → Regex → Regex
  | empty, b => b
  | a, b => seq a b

/-- What may remain to be matched after `c`, which stands after `before`. -/
def residuals (before : Option Char) (c : Char) : Regex → List Regex
  | empty => []
  | char s => if s.has c then [empty] else []
  | anchor _ => []
  | seq a b =>
    (a.residuals before c).map (·.andThen b) ++
      if a.nullable before (some c) then b.residuals before c else []
  | alt a b => a.residuals before c ++ b.residuals before c
  | repetition a min max =>
    if max == some 0 then []
    else
      let fewer := if a.nullable before (some c) then 0 else min - 1
      (a.residuals before c).map (·.andThen (repetition a fewer (max.map (· - 1))))

/-- Search from the place after `before` on; `states` are the attempts under way there. -/
def searchFrom (r : Regex) (before : Option Char) (states : List Regex) : List Char → Bool
  | [] => (r :: states).any (nullable before none)
  | c :: cs =>
    let states := r :: states
    states.any (nullable before (some c)) ||
      searchFrom r (some c) (states.flatMap (residuals before c)).eraseDups cs

def isMatch (r : Regex) (s : String) : Bool := searchFrom r none [] s.toList

end Regex

end Assay.Pattern

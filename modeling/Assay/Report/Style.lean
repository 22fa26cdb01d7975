namespace Assay.Report

inductive Style
  | red
  | green
  | yellow
  | cyan
  | dimmed
  | boldRed
  | boldGreen
  | boldBlue
  | boldWhite
deriving DecidableEq

def Style.code : Style → String
  | red => "31"
  | green => "32"
  | yellow => "33"
  | cyan => "36"
  | dimmed => "2"
  | boldRed => "1;31"
  | boldGreen => "1;32"
  | boldBlue => "1;34"
  | boldWhite => "1;37"

def escape : Char := '\x1b'

def reset : List Char := escape :: "[0m".toList

def start (s : Style) : List Char := escape :: ("[" ++ s.code ++ "m").toList

/-- A style goes on after an end of style inside the text. -/
def resume (s : Style) : List Char → List Char
  | '\x1b' :: '[' :: '0' :: 'm' :: cs => reset ++ start s ++ resume s cs
  | c :: cs => c :: resume s cs
  | [] => []

def paint (color : Bool) (s : Style) (text : String) : String :=
  if color then String.ofList (start s ++ resume s text.toList ++ reset) else text

def flag? (env : List (String × String)) (name : String) : Option Bool :=
  (env.lookup name).map (· != "0")

/-- Whether colours are wanted: when the environment forces them, or on a terminal unless it forbids
them. -/
def wantsColor (env : List (String × String)) (terminal : Bool) : Bool :=
  if flag? env "CLICOLOR_FORCE" = some true then true
  else if (flag? env "NO_COLOR").isSome then false
  else terminal && (flag? env "CLICOLOR").getD true

end Assay.Report

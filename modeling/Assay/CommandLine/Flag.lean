namespace Assay.CommandLine

inductive Effect
  | switch
  /-- Takes a value of the given name. -/
  | value (name : String) (accepts : String → Bool) (repeatable : Bool)
  | help
  | version

structure Flag where
  short : Option Char
  long : String
  effect : Effect
  help : String

inductive Stop
  | help
  | version
  | misuse
deriving DecidableEq

structure Given where
  options : List (String × String) := []
  words : List String := []

namespace Given

def has (g : Given) (long : String) : Bool := g.options.any fun o => o.1 == long

def value? (g : Given) (long : String) : Option String := g.options.lookup long

def values (g : Given) (long : String) : List String :=
  (g.options.filter fun o => o.1 == long).map Prod.snd

def addOption (g : Given) (long value : String) : Given :=
  { g with options := g.options ++ [(long, value)] }

def addWords (g : Given) (words : List String) : Given := { g with words := g.words ++ words }

end Given

inductive Token
  | long (name : String) (value : Option String)
  | short (letters : List Char)
  | word
  /-- All later arguments are words. -/
  | rest

def Token.ofArgument (argument : String) : Token :=
  match argument.toList with
  | ['-', '-'] => rest
  | '-' :: '-' :: cs =>
    let name := cs.takeWhile (· != '=')
    long (String.ofList name)
      (if name.length < cs.length then some (String.ofList (cs.drop (name.length + 1))) else none)
  | '-' :: c :: cs => short (c :: cs)
  | _ => word

/-- Whether an argument can be a value that stands apart from its option. -/
def isWord (argument : String) : Bool :=
  match Token.ofArgument argument with
  | .word => true
  | _ => false

/-- Switch something on. Only once. -/
def setSwitch (flag : Flag) (g : Given) : Except Stop Given :=
  if g.has flag.long then .error .misuse else .ok (g.addOption flag.long "")

def setValue (flag : Flag) (accepts : String → Bool) (repeatable : Bool) (value : String)
    (g : Given) : Except Stop Given :=
  if !accepts value || (!repeatable && g.has flag.long) then .error .misuse
  else .ok (g.addOption flag.long value)

def readLetters (flags : List Flag) : List Char → Given → Except Stop Given
  | [], g => .ok g
  | c :: cs, g =>
    match flags.find? fun f => f.short == some c with
    | none => .error .misuse
    | some flag =>
      match flag.effect with
      | .switch => setSwitch flag g >>= readLetters flags cs
      | .value .. => .error .misuse
      | .help => .error .help
      | .version => .error .version

/-- Read arguments from left to right. The words end at the first one when `one` is set, with all
that follows it. -/
def readArguments (flags : List Flag) (one : Bool) : List String → Given → Except Stop Given
  | [], g => .ok g
  | a :: as, g =>
    match Token.ofArgument a with
    | .word =>
      if one then .ok (g.addWords (a :: as)) else readArguments flags one as (g.addWords [a])
    | .rest => if one then .error .misuse else .ok (g.addWords as)
    | .short letters => readLetters flags letters g >>= readArguments flags one as
    | .long name value =>
      match flags.find? fun f => f.long == name with
      | none => .error .misuse
      | some flag =>
        match flag.effect, value with
        | .switch, none => setSwitch flag g >>= readArguments flags one as
        | .help, none => .error .help
        | .version, none => .error .version
        | .value _ accepts repeatable, some v =>
          setValue flag accepts repeatable v g >>= readArguments flags one as
        | .value _ accepts repeatable, none =>
          match as with
          | v :: rest =>
            if isWord v then
              setValue flag accepts repeatable v g >>= readArguments flags one rest
            else .error .misuse
          | [] => .error .misuse
        | _, some _ => .error .misuse

end Assay.CommandLine

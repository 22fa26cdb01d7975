import Assay.Number.Reading

namespace Assay

structure Url where
  scheme : String
  host : String
  port : Option Nat
  path : List (List Char)
  query : Option (List Char)
  fragment : Option (List Char)

namespace Url

/-- The schemes whose addresses have an authority, each with the port it implies. -/
def schemes : List (String × Nat) :=
  [("http", 80), ("https", 443), ("ws", 80), ("wss", 443), ("ftp", 21)]

def isSlash (c : Char) : Bool := c == '/' || c == '\\'

/-- Drop control characters and blanks at both ends, and tabs and line breaks everywhere. -/
def tidy (cs : List Char) : List Char :=
  let edge (c : Char) : Bool := c.toNat ≤ 32
  let inner := ((cs.dropWhile edge).reverse.dropWhile edge).reverse
  inner.filter fun c => c != '\t' && c != '\n' && c != '\r'

def splitScheme? (cs : List Char) : Option (String × List Char) := do
  let (name, rest) ← Text.cutAt ':' cs
  match name with
  | c :: _ =>
    if c.isAlpha && name.all fun c => c.isAlphanum || c == '+' || c == '-' || c == '.' then
      some (String.ofList (name.map Char.toLower), rest)
    else none
  | [] => none

def percentByte (n : Nat) : List Char :=
  let digit (n : Nat) : Char := "0123456789ABCDEF".toList.getD n '0'
  ['%', digit (n / 16), digit (n % 16)]

/-- A character, or its bytes in percent writing when the part of the address cannot hold it. -/
def encodeChar (escaped : List Char) (c : Char) : List Char :=
  if c.toNat < 32 || 126 < c.toNat || escaped.contains c then
    (String.singleton c).toUTF8.toList.flatMap fun b => percentByte b.toNat
  else [c]

def encode (escaped : List Char) (cs : List Char) : List Char := cs.flatMap (encodeChar escaped)

def escapedInPath : List Char := " \"<>`#?\x7b\x7d".toList

def escapedInQuery : List Char := " \"#<>'".toList

def escapedInFragment : List Char := " \"<>`".toList

/-- The ASCII characters that percent writing stands for; others stay as they are. -/
def decodeHost : List Char → List Char
  | '%' :: a :: b :: r =>
    match readBase? 16 [a, b] with
    | some n => Char.ofNat n :: decodeHost r
    | none => '%' :: decodeHost (a :: b :: r)
  | c :: r => c :: decodeHost r
  | [] => []

def isForbiddenInHost (c : Char) : Bool :=
  c.toNat ≤ 32 || 127 ≤ c.toNat || "#/:<>?@[\\]^|%".toList.contains c

/-- A number of a host address: decimal, octal after a zero, or hexadecimal after `0x`. -/
def hostNumber? : List Char → Option Nat
  | '0' :: 'x' :: r => if r.isEmpty then some 0 else readBase? 16 r
  | ['0'] => some 0
  | '0' :: r => readBase? 8 r
  | cs => readNat? cs

def endsInNumber (labels : List (List Char)) : Bool :=
  match labels.reverse with
  | [] :: l :: _ => (!l.isEmpty && l.all Char.isDigit) || (hostNumber? l).isSome
  | l :: _ => (!l.isEmpty && l.all Char.isDigit) || (hostNumber? l).isSome
  | [] => false

/-- The four bytes of an address given by up to four numbers, the last of which fills the rest. -/
def fourBytes? (ns : List Nat) : Option (List Nat) :=
  match ns.reverse with
  | [] => none
  | last :: heads =>
    let left := 4 - heads.length
    if 3 < heads.length || heads.any (255 < ·) || Nat.pow 256 left ≤ last then none
    else
      some (heads.reverse ++
        (List.range left).map fun i => last / Nat.pow 256 (left - 1 - i) % 256)

def host? (cs : List Char) : Option String :=
  match cs with
  | [] => none
  | '[' :: _ =>
    let inner := (cs.drop 1).dropLast
    if cs.getLast? = some ']' && !inner.isEmpty &&
        inner.all fun c => (hexDigit? c).isSome || c == ':' || c == '.' then
      some (String.ofList (cs.map Char.toLower))
    else none
  | _ =>
    let name := (decodeHost cs).map Char.toLower
    if name.any isForbiddenInHost then none
    else
      let labels := Text.splitOnChar '.' name
      if endsInNumber labels then do
        let labels := if labels.getLast? = some [] then labels.dropLast else labels
        let ns ← labels.mapM hostNumber?
        let bytes ← fourBytes? ns
        some (String.intercalate "." (bytes.map toString))
      else some (String.ofList name)

/-- Host and port. The port that the scheme implies is left out. -/
def hostAndPort? (implied : Nat) (cs : List Char) : Option (String × Option Nat) :=
  let (host, port) := match cs with
    | '[' :: _ =>
      match Text.cutAt ']' cs with
      | some (h, ':' :: p) => (h ++ [']'], p)
      | some (h, []) => (h ++ [']'], [])
      | _ => (cs, [])
    | _ =>
      match Text.cutAt ':' cs with
      | some (h, p) => (h, p)
      | none => (cs, [])
  match host? host with
  | none => none
  | some h =>
    if port.isEmpty then some (h, none)
    else
      match (readNat? port).filter (· ≤ 65535) with
      | some n => some (h, if n = implied then none else some n)
      | none => none

def isDot (segment : List Char) : Bool :=
  let s := String.ofList (segment.map Char.toLower)
  s == "." || s == "%2e"

def isDoubleDot (segment : List Char) : Bool :=
  let s := String.ofList (segment.map Char.toLower)
  s == ".." || s == ".%2e" || s == "%2e." || s == "%2e%2e"

/-- Walk down the segments: a point stays, two points go up. `above` holds the way, last first. -/
def settle (above : List (List Char)) : List (List Char) → List (List Char)
  | [] => above.reverse
  | [s] =>
    if isDoubleDot s then ([] :: above.drop 1).reverse
    else if isDot s then ([] :: above).reverse
    else (encode escapedInPath s :: above).reverse
  | s :: ss =>
    if isDoubleDot s then settle (above.drop 1) ss
    else if isDot s then settle above ss
    else settle (encode escapedInPath s :: above) ss

def splitPath (cs : List Char) : List (List Char) :=
  Text.splitOnChar '/' (cs.map fun c => if c = '\\' then '/' else c)

/-- What stands before the first occurrence of a character, and what follows it if it occurs. -/
def cutOptional (sep : Char) (cs : List Char) : List Char × Option (List Char) :=
  match Text.cutAt sep cs with
  | some (a, b) => (a, some b)
  | none => (cs, none)

/-- The parts after the colon of the scheme. Credentials before the host are dropped. -/
def afterScheme? (scheme : String) (implied : Nat) (cs : List Char) : Option Url := do
  let (cs, fragment) := cutOptional '#' cs
  let (cs, query) := cutOptional '?' cs
  let cs := cs.dropWhile isSlash
  let authority := cs.takeWhile (!isSlash ·)
  let rest := (cs.drop authority.length).drop 1
  let place := match Text.cutAtLast '@' authority with
    | some (_, h) => h
    | none => authority
  let (host, port) ← hostAndPort? implied place
  some
    { scheme := scheme
      host := host
      port := port
      path := settle [] (splitPath rest)
      query := query.map (encode escapedInQuery)
      fragment := fragment.map (encode escapedInFragment) }

def text (u : Url) : String :=
  let path := u.path.flatMap fun s => '/' :: s
  let tail := match u.query with
    | some q => '?' :: q
    | none => []
  let mark := match u.fragment with
    | some f => '#' :: f
    | none => []
  u.scheme ++ "://" ++ u.host ++
    (match u.port with
      | some n => ":" ++ toString n
      | none => "") ++
    String.ofList (path ++ (tail ++ mark))

end Url

def withoutSlashes (address : String) : String := String.ofList (Text.dropLast '/' address.toList)

inductive Address
  | web (url : Url)
  /-- An address that HTTP cannot reach. -/
  | foreign (text : String)
  | malformed

def Address.read (text : String) : Address :=
  match Url.splitScheme? (Url.tidy text.toList) with
  | none => .malformed
  | some (scheme, rest) =>
    match Url.schemes.lookup scheme with
    | none => .foreign (scheme ++ ":" ++ String.ofList rest)
    | some implied =>
      match Url.afterScheme? scheme implied rest with
      | none => .malformed
      | some url =>
        if scheme = "http" || scheme = "https" then .web url else .foreign url.text

end Assay

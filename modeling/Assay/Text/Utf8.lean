namespace Assay.Text

/-- What the bytes at the head of a list are: a character with the bytes after it, or so many
bytes that begin none. -/
inductive Decoded
  | char (c : Char) (rest : List UInt8)
  | invalid (rest : List UInt8)

def isContinuation (b : UInt8) : Bool := 0x80 ≤ b && b ≤ 0xbf

/-- How many continuation bytes a first byte asks for, and the range of the first of them. -/
def continuation? (b : UInt8) : Option (Nat × UInt8 × UInt8) :=
  if 0xc2 ≤ b && b ≤ 0xdf then some (1, 0x80, 0xbf)
  else if b == 0xe0 then some (2, 0xa0, 0xbf)
  else if b == 0xed then some (2, 0x80, 0x9f)
  else if 0xe1 ≤ b && b ≤ 0xef then some (2, 0x80, 0xbf)
  else if b == 0xf0 then some (3, 0x90, 0xbf)
  else if 0xf1 ≤ b && b ≤ 0xf3 then some (3, 0x80, 0xbf)
  else if b == 0xf4 then some (3, 0x80, 0x8f)
  else none

def takeContinuation (code : Nat) : Nat → List UInt8 → Decoded
  | 0, rest => .char (Char.ofNat code) rest
  | n + 1, b :: rest =>
    if isContinuation b then takeContinuation (code * 64 + (b.toNat - 0x80)) n rest
    else .invalid (b :: rest)
  | _ + 1, [] => .invalid []

/-- The first character of some bytes. Bytes that cannot belong to one character are cut off
together as far as they could have begun one. -/
def decodeFirst (b : UInt8) (rest : List UInt8) : Decoded :=
  if b < 0x80 then .char (Char.ofNat b.toNat) rest
  else
    match continuation? b, rest with
    | some (n, low, high), c :: rest' =>
      if low ≤ c && c ≤ high then
        let head := if n = 1 then b.toNat - 0xc0 else if n = 2 then b.toNat - 0xe0
          else b.toNat - 0xf0
        takeContinuation (head * 64 + (c.toNat - 0x80)) (n - 1) rest'
      else .invalid rest
    | _, _ => .invalid rest

/-- Decode at most `fuel` characters; `bad` stands for bytes that are none. -/
def decodeFrom (bad : Option Char) : Nat → List UInt8 → List Char → Option (List Char)
  | _, [], done => some done.reverse
  | 0, _, done => some done.reverse
  | fuel + 1, b :: rest, done =>
    match decodeFirst b rest with
    | .char c rest => decodeFrom bad fuel rest (c :: done)
    | .invalid rest => bad.bind fun c => decodeFrom bad fuel rest (c :: done)

def ofBytes? (bytes : List UInt8) : Option String :=
  (decodeFrom none bytes.length bytes []).map String.ofList

/-- The text of some bytes, with a replacement character for what is none. -/
def ofBytesLossy (bytes : List UInt8) : String :=
  ((decodeFrom (some '\ufffd') bytes.length bytes []).map String.ofList).getD ""

end Assay.Text

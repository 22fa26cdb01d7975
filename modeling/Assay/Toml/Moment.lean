import Assay.Number.Reading
import Assay.Text.Split

namespace Assay.Toml

/-- So many digits, with the number they write when it lies between two others. -/
def readField (count low high : Nat) (cs : List Char) : Option (List Char × List Char) := do
  let ds := cs.take count
  let n ← if ds.length = count then readNat? ds else none
  if low ≤ n ∧ n ≤ high then some (ds, cs.drop count) else none

def isLeapYear (year : Nat) : Bool := year % 4 == 0 && (year % 100 != 0 || year % 400 == 0)

def daysIn (year month : Nat) : Nat :=
  if month = 2 then (if isLeapYear year then 29 else 28)
  else if [4, 6, 9, 11].contains month then 30
  else 31

def readDate (cs : List Char) : Option (List Char × List Char) := do
  let (year, r) ← readField 4 0 9999 cs
  let r ← Text.dropPrefix ['-'] r
  let (month, r) ← readField 2 1 12 r
  let r ← Text.dropPrefix ['-'] r
  let (day, r) ← readField 2 1 (daysIn (digitsFrom 0 year) (digitsFrom 0 month)) r
  some (year ++ '-' :: (month ++ '-' :: day), r)

/-- The fraction of a second to nine digits, without zeros at its end. -/
def readFraction (cs : List Char) : List Char × List Char :=
  match cs with
  | '.' :: r =>
    let ds := r.takeWhile Char.isDigit
    if ds.isEmpty then ([], cs)
    else
      let kept := Text.dropLast '0' (ds.take 9)
      (if kept.isEmpty then [] else '.' :: kept, r.drop ds.length)
  | _ => ([], cs)

def readTime (cs : List Char) : Option (List Char × List Char) := do
  let (hour, r) ← readField 2 0 23 cs
  let r ← Text.dropPrefix [':'] r
  let (minute, r) ← readField 2 0 59 r
  let r ← Text.dropPrefix [':'] r
  let (second, r) ← readField 2 0 60 r
  let (fraction, r) := readFraction r
  some (hour ++ ':' :: (minute ++ ':' :: (second ++ fraction)), r)

/-- The distance from universal time; a negative distance of zero is written as a positive one. -/
def readOffset (cs : List Char) : List Char × List Char :=
  match cs with
  | 'Z' :: r | 'z' :: r => (['Z'], r)
  | c :: r =>
    let offset := do
      let (hour, r) ← readField 2 0 23 r
      let r ← Text.dropPrefix [':'] r
      let (minute, r) ← readField 2 0 59 r
      let digits := hour ++ ':' :: minute
      let sign := if hour ++ minute = ['0', '0', '0', '0'] then '+' else c
      some (sign :: digits, r)
    if c == '+' || c == '-' then offset.getD ([], cs) else ([], cs)
  | [] => ([], [])

/-- A date, a time of day, or both, with an offset at most when there are both. -/
def readMoment (cs : List Char) : Option (String × List Char) :=
  match readDate cs with
  | none => (readTime cs).map fun t => (String.ofList t.1, t.2)
  | some (date, r) =>
    let time := match r with
      | 'T' :: r | 't' :: r | ' ' :: r => readTime r
      | _ => none
    match time with
    | none => some (String.ofList date, r)
    | some (time, r) =>
      let (offset, r) := readOffset r
      some (String.ofList (date ++ 'T' :: (time ++ offset)), r)

/-- The one key of a mapping that stands for a point in time. -/
def momentKey : String := "$__toml_private_datetime"

end Assay.Toml

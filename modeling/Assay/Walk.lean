import Assay.Json.Print
import Assay.Number.Reading

namespace Assay.Value

/-- The value under one segment of a path: a field by its name, an item by its place. -/
def child? (v : Value) (segment : String) : Option Value :=
  match v with
  | .object fields => Entries.get? fields segment
  | .array items => (readUnsigned? (Nat.pow 2 64 - 1) segment.toList).bind (items[·]?)
  | _ => none

def descend? (v : Value) : List String → Option Value
  | [] => some v
  | s :: ss => (v.child? s).bind (descend? · ss)

def segments (path : String) : List String :=
  (Text.splitOnChar '.' path.toList).map String.ofList

/-- The value at a dotted path; the empty path is the value itself. -/
def walk? (v : Value) (path : String) : Option Value :=
  if path = "" then some v else v.descend? (segments path)

def length? : Value → Option Nat
  | .string s => some s.toList.length
  | .array items => some items.length
  | .object fields => some fields.length
  | _ => none

end Assay.Value

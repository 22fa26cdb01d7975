import Assay.Number.Double

namespace Assay

/-- A number keeps whether it was written as an integer. Integers range over `-2^63 … 2^64 - 1`. -/
inductive Number
  | int (n : Int)
  | float (x : Double)
deriving DecidableEq

def Number.toDouble : Number → Double
  | .int n => .ofInt n
  | .float x => x

/-- A JSON value. The fields of an object stand in insertion order. -/
inductive Value
  | null
  | bool (b : Bool)
  | number (n : Number)
  | string (s : String)
  | array (items : List Value)
  | object (fields : List (String × Value))

abbrev Entries (α : Type) := List (String × α)

abbrev Fields := Entries Value

namespace Entries

variable {α : Type}

def get? (entries : Entries α) (key : String) : Option α := entries.lookup key

/-- Set an entry: in its place when the key is present, at the end otherwise. -/
def put : Entries α → String → α → Entries α
  | [], key, a => [(key, a)]
  | (k, b) :: es, key, a => if k = key then (k, a) :: es else (k, b) :: put es key a

/-- The last value given for a key counts; the key keeps its first place. -/
def ofList (entries : List (String × α)) : Entries α :=
  entries.foldl (fun es e => es.put e.1 e.2) []

def keys (entries : Entries α) : List String := entries.map Prod.fst

def sorted (entries : Entries α) : Entries α := entries.mergeSort fun a b => a.1 ≤ b.1

end Entries

namespace Value

def int (n : Int) : Value := .number (.int n)

def nat (n : Nat) : Value := .number (.int n)

def strings (ss : List String) : Value := .array (ss.map .string)

def ofOption {α : Type} (f : α → Value) : Option α → Value
  | some a => f a
  | none => .null

def toDouble? : Value → Option Double
  | .number n => some n.toDouble
  | _ => none

def asString? : Value → Option String
  | .string s => some s
  | _ => none

mutual

def DistinctKeys : Value → Prop
  | .array items => DistinctKeysAll items
  | .object fields => (Entries.keys fields).Nodup ∧ DistinctKeysFields fields
  | _ => True
termination_by structural v => v

def DistinctKeysAll : List Value → Prop
  | [] => True
  | v :: vs => DistinctKeys v ∧ DistinctKeysAll vs
termination_by structural v => v

def DistinctKeysFields : List (String × Value) → Prop
  | [] => True
  | (_, v) :: fs => DistinctKeys v ∧ DistinctKeysFields fs
termination_by structural v => v

end

mutual

def merged : Value → Value
  | .array items => .array (mergedAll items)
  | .object fields => .object (Entries.ofList (mergedFields fields))
  | v => v
termination_by structural v => v

def mergedAll : List Value → List Value
  | [] => []
  | v :: vs => merged v :: mergedAll vs
termination_by structural v => v

def mergedFields : List (String × Value) → List (String × Value)
  | [] => []
  | (k, v) :: fs => (k, merged v) :: mergedFields fs
termination_by structural v => v

end

end Value

end Assay

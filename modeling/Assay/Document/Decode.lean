import Assay.Document.Fault

namespace Assay

abbrev Decoder (α : Type) := Origin → Document → Except Mismatch α

namespace Decoder

def mismatch {α : Type} (d : Document) (expected : String) : Except Mismatch α :=
  .error (.type d.found expected)

def text : Decoder String := fun _ d =>
  match d with
  | .string s => .ok s
  | .plain s => .ok s
  | d => mismatch d "a string"

def bool : Decoder Bool := fun _ d =>
  match d with
  | .bool b => .ok b
  | .plain s =>
    match Scalar.bool? s with
    | some b => .ok b
    | none => mismatch d "a boolean"
  | d => mismatch d "a boolean"

/-- An integer between the limits of a named range. A plain scalar must be an integer within the
64-bit limits `wide` before the range is looked at. -/
def integer (low high : Int) (wide : Int × Int) (name : String) : Decoder Int := fun _ d =>
  let within (n : Int) : Except Mismatch Int :=
    if low ≤ n ∧ n ≤ high then .ok n else .error (.value (.int n) name)
  match d with
  | .number (.int n) => within n
  | .plain s =>
    match (Scalar.int? s.toList).filter fun n => decide (wide.1 ≤ n ∧ n ≤ wide.2) with
    | some n => within n
    | none => mismatch d name
  | d => mismatch d name

def unsigned (high : Nat) (name : String) : Decoder Nat := fun o d =>
  (integer 0 high (0, Nat.pow 2 64 - 1) name o d).map Int.toNat

def port : Decoder Nat := unsigned 65535 "u16"

def attempts : Decoder Nat := unsigned (Nat.pow 2 32 - 1) "u32"

def size : Decoder Nat := unsigned (Nat.pow 2 64 - 1) "usize"

def int64 : Decoder Int :=
  let low : Int := -(Nat.pow 2 63 : Int)
  let high : Int := Nat.pow 2 63 - 1
  integer low high (low, high) "i64"

def float : Decoder Double := fun _ d =>
  match d with
  | .number n => .ok n.toDouble
  | .plain s =>
    match Scalar.float? s with
    | some x => .ok x
    | none => mismatch d "f64"
  | d => mismatch d "f64"

def nullable {α : Type} (dec : Decoder α) : Decoder (Option α) := fun o d =>
  match d with
  | .null => .ok none
  | .plain s => if Scalar.isNull s then .ok none else (dec o d).map some
  | d => (dec o d).map some

def eachOf {α : Type} (dec : Decoder α) (o : Origin) : List Document → Except Mismatch (List α)
  | [] => .ok []
  | d :: ds => do
    let a ← dec o d
    let as ← eachOf dec o ds
    pure (a :: as)

/-- A list; an empty place in a document counts as an empty list. -/
def list {α : Type} (dec : Decoder α) : Decoder (List α) := fun o d =>
  match d with
  | .sequence items => eachOf dec o items
  | .plain "" => .ok []
  | d => mismatch d "a sequence"

def keyText (expected : String) : Key → Except Mismatch String
  | .text s => .ok s
  | .sequence => .error (.type .sequence expected)
  | .mapping => .error (.type .mapping expected)

def ofScalar : Scalar → Except Mismatch Value
  | .null => .ok .null
  | .bool b => .ok (.bool b)
  | .int n =>
    if -(Nat.pow 2 63 : Int) ≤ n ∧ n < Nat.pow 2 64 then .ok (.int n)
    else .error (.type (.int n) "any valid JSON value")
  | .float x => .ok (if x.isFinite then .number (.float x) else .null)
  | .text s => .ok (.string s)

mutual

/-- Any document as a JSON value. Of repeated keys the last one counts. -/
def anyValue : Document → Except Mismatch Value
  | .null => .ok .null
  | .bool b => .ok (.bool b)
  | .number (.int n) => .ok (.int n)
  | .number (.float x) => .ok (if x.isFinite then .number (.float x) else .null)
  | .string s => .ok (.string s)
  | .plain s => ofScalar (.ofPlain s)
  | .sequence items => (anyValues items).map .array
  | .mapping entries => (anyFields entries).map fun fs => .object (Entries.ofList fs)
termination_by structural d => d

def anyValues : List Document → Except Mismatch (List Value)
  | [] => .ok []
  | d :: ds => do
    let v ← anyValue d
    let vs ← anyValues ds
    pure (v :: vs)
termination_by structural d => d

def anyFields : List (Key × Document) → Except Mismatch (List (String × Value))
  | [] => .ok []
  | (k, d) :: es => do
    let k ← keyText "a string key" k
    let v ← anyValue d
    let fs ← anyFields es
    pure ((k, v) :: fs)
termination_by structural d => d

end

def value : Decoder Value := fun _ d => anyValue d

def entriesOf {α : Type} (dec : Decoder α) (o : Origin) :
    List (Key × Document) → Except Mismatch (List (String × α))
  | [] => .ok []
  | (k, d) :: es => do
    let k ← keyText "a string" k
    let a ← dec o d
    let as ← entriesOf dec o es
    pure ((k, a) :: as)

/-- Named entries in document order; an empty place counts as no entries. -/
def entries {α : Type} (dec : Decoder α) : Decoder (List (String × α)) := fun o d =>
  match d with
  | .mapping es => entriesOf dec o es
  | .plain "" => .ok []
  | d => mismatch d "a map"

/-- Named JSON values; of repeated keys the last one counts. -/
def fields : Decoder Fields := fun o d => (entries value o d).map Entries.ofList

def variant {α : Type} (known : List (String × α)) : Decoder α := fun o d =>
  let named (s : String) : Except Mismatch α :=
    match known.lookup s with
    | some a => .ok a
    | none => .error (.unknownVariant s (known.map Prod.fst))
  let foreign : Except Mismatch α :=
    match o with
    | .jsonText => .error .expectedValue
    | .yaml => mismatch d "a YAML tag starting with '!'"
    | _ => mismatch d "string or map"
  match d with
  | .string s => named s
  | .plain s => named s
  | .mapping [(.text s, .null)] => if o = .yaml then foreign else named s
  | _ => foreign

end Decoder

end Assay

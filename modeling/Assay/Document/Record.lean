import Assay.Document.Decode

namespace Assay

/-- How a record is read from its fields: the field names in order, a check of one field on its
own, and the record made of the fields that are present. -/
structure Record (α : Type) where
  names : List String
  check : Origin → String → Document → Except Mismatch Unit
  build : Origin → (String → Option Document) → Except Mismatch α

namespace Record

def required {α : Type} (name : String) (dec : Decoder α) : Record α where
  names := [name]
  check o key d := if key = name then (dec o d).map fun _ => () else .ok ()
  build o get :=
    match get name with
    | some d => dec o d
    | none => .error (.missingField name)

def optional {α : Type} (name : String) (absent : α) (dec : Decoder α) : Record α where
  names := [name]
  check o key d := if key = name then (dec o d).map fun _ => () else .ok ()
  build o get :=
    match get name with
    | some d => dec o d
    | none => .ok absent

def option {α : Type} (name : String) (dec : Decoder α) : Record (Option α) :=
  optional name none (Decoder.nullable dec)

protected def pure {α : Type} (a : α) : Record α where
  names := []
  check _ _ _ := .ok ()
  build _ _ := .ok a

protected def seq {α β : Type} (f : Record (α → β)) (a : Record α) : Record β where
  names := f.names ++ a.names
  check o key d := do
    f.check o key d
    a.check o key d
  build o get := do
    let g ← f.build o get
    let x ← a.build o get
    pure (g x)

instance : Applicative Record where
  pure := Record.pure
  seq f a := Record.seq f (a ())

/-- Look at the entries in document order: repeated, unknown and ill-typed fields. -/
def inspect {α : Type} (r : Record α) (strict : Bool) (o : Origin) (seen : List String) :
    List (Key × Document) → Except Mismatch Unit
  | [] => .ok ()
  | (.text k, d) :: es =>
    if r.names.contains k then
      if seen.contains k then .error (.duplicateField k)
      else do
        r.check o k d
        inspect r strict o (k :: seen) es
    else if strict then .error (.unknownField k r.names)
    else inspect r strict o seen es
  | (.sequence, _) :: _ => .error (.type .sequence "field identifier")
  | (.mapping, _) :: _ => .error (.type .mapping "field identifier")

def fromEntries {α : Type} (r : Record α) (strict : Bool) (o : Origin)
    (es : List (Key × Document)) : Except Mismatch α := do
  inspect r strict o [] es
  r.build o fun name => es.lookup (.text name)

def elements (n : Nat) : String := toString n ++ (if n = 1 then " element" else " elements")

def fromItems {α : Type} (r : Record α) (type : String) (o : Origin) (ds : List Document) :
    Except Mismatch α := do
  let es := (r.names.zip ds).map fun p => (Key.text p.1, p.2)
  inspect r false o [] es
  let a ← match r.build o fun name => es.lookup (.text name) with
    | .error (.missingField name) =>
      .error
        (.length (r.names.idxOf name) ("struct " ++ type ++ " with " ++ elements r.names.length))
    | result => result
  if r.names.length < ds.length then
    .error (if o = .jsonText then .trailing else .length ds.length "fewer elements in array")
  else pure a

/-- A record of the named type. Unknown fields are refused when `strict`. -/
def decode {α : Type} (r : Record α) (type : String) (strict : Bool) : Decoder α := fun o d =>
  match d with
  | .mapping es => r.fromEntries strict o es
  | .plain "" => r.fromEntries strict o []
  | .sequence ds =>
    if o = .yaml then Decoder.mismatch d ("struct " ++ type) else r.fromItems type o ds
  | d => Decoder.mismatch d ("struct " ++ type)

end Record

end Assay

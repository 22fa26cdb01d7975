import Assay.Value

namespace Assay.Value

mutual

/-- Deep equality: numbers by what they count, objects without regard to the order of fields. -/
def equals : Value → Value → Bool
  | .null, .null => true
  | .bool a, .bool b => a == b
  | .number a, .number b => a.toDouble.equals b.toDouble
  | .string a, .string b => a == b
  | .array as, .array bs => equalsAll as bs
  | .object as, .object bs => as.length == bs.length && equalsFields as bs
  | _, _ => false
termination_by structural a => a

def equalsAll : List Value → List Value → Bool
  | [], [] => true
  | a :: as, b :: bs => equals a b && equalsAll as bs
  | _, _ => false
termination_by structural a => a

/-- Every field of the first list has an equal field of that name in the second. -/
def equalsFields : List (String × Value) → List (String × Value) → Bool
  | [], _ => true
  | (k, a) :: as, bs => (Entries.get? bs k).any (equals a) && equalsFields as bs
termination_by structural a => a

end

def kindName : Option Value → String
  | none => "undefined"
  | some .null => "null"
  | some (.bool _) => "boolean"
  | some (.number _) => "number"
  | some (.string _) => "string"
  | some (.array _) => "array"
  | some (.object _) => "object"

end Assay.Value

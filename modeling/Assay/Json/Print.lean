import Assay.Value
import Assay.Number.Shortest

namespace Assay

def hexDigit (n : Nat) : Char := "0123456789abcdef".toList.getD n '0'

def escapeChar (c : Char) : List Char :=
  if c = '"' then ['\\', '"']
  else if c = '\\' then ['\\', '\\']
  else if c = '\n' then ['\\', 'n']
  else if c = '\r' then ['\\', 'r']
  else if c = '\t' then ['\\', 't']
  else if c.toNat = 8 then ['\\', 'b']
  else if c.toNat = 12 then ['\\', 'f']
  else if c.toNat < 32 then ['\\', 'u', '0', '0', hexDigit (c.toNat / 16), hexDigit (c.toNat % 16)]
  else [c]

def quoteText (s : String) : String :=
  String.ofList ('"' :: (s.toList.flatMap escapeChar ++ ['"']))

def Number.text : Number → String
  | .int n => toString n
  | .float x => DecimalLayout.json.write x

mutual

def Value.compact : Value → String
  | .null => "null"
  | .bool b => if b then "true" else "false"
  | .number n => n.text
  | .string s => quoteText s
  | .array items => "[" ++ Value.compactItems items ++ "]"
  | .object fields => "\x7b" ++ Value.compactFields fields ++ "\x7d"
termination_by structural v => v

def Value.compactItems : List Value → String
  | [] => ""
  | [v] => v.compact
  | v :: vs => v.compact ++ "," ++ Value.compactItems vs
termination_by structural v => v

def Value.compactFields : List (String × Value) → String
  | [] => ""
  | [(k, v)] => quoteText k ++ ":" ++ v.compact
  | (k, v) :: fs => quoteText k ++ ":" ++ v.compact ++ "," ++ Value.compactFields fs
termination_by structural v => v

end

/-- A string as it is, anything else as JSON text. -/
def Value.text : Value → String
  | .string s => s
  | v => v.compact

end Assay

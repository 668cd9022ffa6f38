import WorkflowLint.Json.Basic
import WorkflowLint.Number.Shortest
import WorkflowLint.Text.Utf8
/-!
# Compact JSON text

`Json.render` writes a value without any blank. Only the quote, the backslash and the control
characters below U+0020 are escaped in a string. A float has the fewest digits that read back,
always with a point or an exponent, so that it is not taken for an integer.
-/

namespace WorkflowLint.Json

/-- Floats are positional from `1e-5` to below `1e16`. -/
def floatStyle : Binary64.DecimalStyle := { maxPoint := 16, maxZeros := 5 }

def floatText (x : Binary64) : String :=
  (if x.negative then "-" else "") ++ floatStyle.write x.shortest

def Number.text : Number → String
  | .int n => toString n
  | .float x => floatText x

def hexDigit (n : Nat) : Char :=
  if n < 10 then Char.ofNat (48 + n) else Char.ofNat (87 + n)

def escapeChar (c : Char) : List Char :=
  if c = '"' then ['\\', '"']
  else if c = '\\' then ['\\', '\\']
  else if c = '\n' then ['\\', 'n']
  else if c = '\r' then ['\\', 'r']
  else if c = '\t' then ['\\', 't']
  else if c.toNat = 8 then ['\\', 'b']
  else if c.toNat = 12 then ['\\', 'f']
  else if c.toNat < 0x20 then
    ['\\', 'u', '0', '0', hexDigit (c.toNat / 16), hexDigit (c.toNat % 16)]
  else [c]

def quote (s : String) : String :=
  "\"" ++ String.ofList (s.toList.flatMap escapeChar) ++ "\""

mutual

def render : Json → String
  | .null => "null"
  | .bool true => "true"
  | .bool false => "false"
  | .number n => n.text
  | .string s => quote s
  | .array items => "[" ++ renderItems items ++ "]"
  | .fields fs => "\x7b" ++ renderFields fs ++ "\x7d"

/-- The items of an array, with commas between. -/
def renderItems : List Json → String
  | [] => ""
  | [v] => render v
  | v :: rest => render v ++ "," ++ renderItems rest

/-- The fields of an object, with commas between. -/
def renderFields : List (String × Json) → String
  | [] => ""
  | [(k, v)] => quote k ++ ":" ++ render v
  | (k, v) :: rest => quote k ++ ":" ++ render v ++ "," ++ renderFields rest

end

def toBytes (v : Json) : List UInt8 :=
  Text.Utf8.ofString (render v)

end WorkflowLint.Json

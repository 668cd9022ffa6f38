import WorkflowLint.Text.Printable
/-!
# Quoting a text in a message

A text that a message shows as a value stands in double quotes. The quote, the backslash and the
usual control characters take a letter, and any other character that does not print takes its code
point in braces.
-/

namespace WorkflowLint.Text

/-- The hexadecimal digits of a number, in lower case. -/
def hexText (n : Nat) : List Char := Nat.toDigits 16 n

/-- A character between the quotes. -/
def quotedChar (c : Char) : List Char :=
  if c = '"' then ['\\', '"']
  else if c = '\\' then ['\\', '\\']
  else if c = '\n' then ['\\', 'n']
  else if c = '\r' then ['\\', 'r']
  else if c = '\t' then ['\\', 't']
  else if c.toNat = 0 then ['\\', '0']
  else if isPrintable c then [c]
  else ['\\', 'u', '\x7b'] ++ hexText c.toNat ++ ['\x7d']

def quoted (s : String) : String :=
  "\"" ++ String.ofList (s.toList.flatMap quotedChar) ++ "\""

end WorkflowLint.Text

import WorkflowLint.Json.Parser
/-!
# TOML strings and keys

Readers on the rest of a document. Each takes the text after the opening quotes and answers with
what the string holds and the text after its closing quotes, or with nothing when the text breaks
a rule.
-/

namespace WorkflowLint.Toml

/-- A blank inside a line. -/
def isSpace (c : Char) : Bool := c = ' ' || c = '\t'

/-- A character that may stand in a comment or a one-line string. -/
def isPlain (c : Char) : Bool := c = '\t' || (0x20 ≤ c.toNat && c.toNat ≠ 0x7F)

/-- The text after a line end, if one comes next. -/
def newline? : List Char → Option (List Char)
  | '\n' :: rest => some rest
  | '\r' :: '\n' :: rest => some rest
  | _ => none

/-- The value of `n` hexadecimal digits. -/
def hex? : Nat → List Char → Nat → Option (Nat × List Char)
  | 0, s, value => some (value, s)
  | n + 1, c :: rest, value =>
    if c.toNat < 0x80 then do hex? n rest (value * 16 + (← Json.hexValue c.toNat.toUInt8)) else none
  | _ + 1, [], _ => none

/-- The character of a code point that is one. -/
def scalar? (n : Nat) : Option Char :=
  if n.isValidChar then some (Char.ofNat n) else none

/-- The character of an escape, read after its backslash, and the number of characters it
takes. -/
def escape? : List Char → Option (Char × Nat)
  | 'b' :: _ => some (Char.ofNat 8, 1)
  | 't' :: _ => some ('\t', 1)
  | 'n' :: _ => some ('\n', 1)
  | 'f' :: _ => some (Char.ofNat 12, 1)
  | 'r' :: _ => some ('\r', 1)
  | 'e' :: _ => some (Char.ofNat 27, 1)
  | '"' :: _ => some ('"', 1)
  | '\\' :: _ => some ('\\', 1)
  | 'x' :: rest => do return (← scalar? (← hex? 2 rest 0).1, 3)
  | 'u' :: rest => do return (← scalar? (← hex? 4 rest 0).1, 5)
  | 'U' :: rest => do return (← scalar? (← hex? 8 rest 0).1, 9)
  | _ => none

/-- A one-line string with escapes; `acc` is what it held before, last first. -/
def basic? (s acc : List Char) : Option (List Char × List Char) :=
  match s with
  | [] => none
  | '"' :: rest => some (acc.reverse, rest)
  | '\\' :: rest =>
    match escape? rest with
    | none => none
    | some (c, width) => basic? (rest.drop width) (c :: acc)
  | c :: rest => if isPlain c then basic? rest (c :: acc) else none
termination_by s.length
decreasing_by all_goals simp_wf; try omega

/-- A one-line string without escapes. -/
def literal? : List Char → List Char → Option (List Char × List Char)
  | [], _ => none
  | '\'' :: rest, acc => some (acc.reverse, rest)
  | c :: rest, acc => if isPlain c then literal? rest (c :: acc) else none

/-- The end of a string in threefold quotes: one or two more quotes belong to the string. -/
def closeBlock (quote : Char) (acc rest : List Char) : List Char × List Char :=
  match rest with
  | a :: b :: rest' =>
    if a = quote ∧ b = quote then ((quote :: quote :: acc).reverse, rest')
    else if a = quote then ((quote :: acc).reverse, b :: rest')
    else (acc.reverse, rest)
  | [a] => if a = quote then ((quote :: acc).reverse, []) else (acc.reverse, rest)
  | [] => (acc.reverse, [])

/-- Whether a backslash before `s` ends its line. -/
def endsLine (s : List Char) : Bool :=
  (newline? (s.dropWhile isSpace)).isSome

/-- A string of several lines with escapes. A backslash at the end of a line takes the line end
and all blanks and line ends after it away. -/
def basicBlock? (s acc : List Char) : Option (List Char × List Char) :=
  match s with
  | [] => none
  | '"' :: '"' :: '"' :: rest => some (closeBlock '"' acc rest)
  | '\\' :: rest =>
    if endsLine rest then
      basicBlock? (rest.drop (rest.takeWhile fun c => isSpace c || c = '\n' || c = '\r').length) acc
    else
      match escape? rest with
      | none => none
      | some (c, width) => basicBlock? (rest.drop width) (c :: acc)
  | '\r' :: '\n' :: rest => basicBlock? rest ('\n' :: acc)
  | c :: rest => if isPlain c || c = '\n' then basicBlock? rest (c :: acc) else none
termination_by s.length
decreasing_by all_goals simp_wf; try omega

/-- A string of several lines without escapes. -/
def literalBlock? : List Char → List Char → Option (List Char × List Char)
  | [], _ => none
  | '\'' :: '\'' :: '\'' :: rest, acc => some (closeBlock '\'' acc rest)
  | '\r' :: '\n' :: rest, acc => literalBlock? rest ('\n' :: acc)
  | c :: rest, acc => if isPlain c || c = '\n' then literalBlock? rest (c :: acc) else none

/-- The text after a line end at the very start of a block, which is not part of it. -/
def openBlock (s : List Char) : List Char := (newline? s).getD s

/-- A string of any form, read from its opening quotes on; none when no string begins here. -/
def string? : List Char → Option (List Char × List Char)
  | '"' :: '"' :: '"' :: rest => basicBlock? (openBlock rest) []
  | '\'' :: '\'' :: '\'' :: rest => literalBlock? (openBlock rest) []
  | '"' :: rest => basic? rest []
  | '\'' :: rest => literal? rest []
  | _ => none

/-! ## Keys -/

def isBare (c : Char) : Bool := c.isAlphanum || c = '_' || c = '-'

def keyPart? : List Char → Option (String × List Char)
  | '"' :: rest => do
    let (cs, rest) ← basic? rest []
    return (String.ofList cs, rest)
  | '\'' :: rest => do
    let (cs, rest) ← literal? rest []
    return (String.ofList cs, rest)
  | s =>
    let cs := s.takeWhile isBare
    if cs.isEmpty then none else some (String.ofList cs, s.dropWhile isBare)

/-- The parts of a key, and the text after the blanks that follow it. -/
def key? : Nat → List Char → Option (List String × List Char)
  | 0, _ => none
  | fuel + 1, s => do
    let (part, rest) ← keyPart? (s.dropWhile isSpace)
    match rest.dropWhile isSpace with
    | '.' :: rest => do
      let (parts, rest) ← key? fuel rest
      return (part :: parts, rest)
    | rest => return ([part], rest)

end WorkflowLint.Toml

import WorkflowLint.Lint.Diagnostic
import WorkflowLint.Text.Lines
/-!
# Scripts inside a workflow

A script is the value of a `run:` key: a block on the lines below the key, or a text on the line of
the key. `Script.place?` takes a place in the script to its place in the document. All columns
count characters.
-/

namespace WorkflowLint

/-- A marked range of columns on one line, counted from zero, the end excluded. -/
structure Place where
  line : Nat
  start : Nat
  stop : Nat
  deriving DecidableEq, Inhabited

namespace Script

open Text (trimStart trimEnd allBlank)

/-- The key whose value is a script. -/
def key : List Char := ['r', 'u', 'n', ':']

/-- Whether a key may stand after `before`, which is given back to front. -/
def opensKey : List Char → Bool
  | [] => true
  | c :: _ => Text.isBlank c

/-- The text before the first key and the text after it; `before` are the characters passed, back
to front. -/
def splitKey (before : List Char) : List Char → Option (List Char × List Char)
  | [] => none
  | c :: rest =>
    if key.isPrefixOf (c :: rest) && opensKey before then
      some (before.reverse, (c :: rest).drop key.length)
    else splitKey (c :: before) rest

/-- The number of blanks a line begins with. -/
def indent (line : List Char) : Nat := (line.takeWhile Text.isBlank).length

/-- Whether a value announces a block. -/
def isBlockMark : List Char → Bool
  | '|' :: _ => true
  | '>' :: _ => true
  | _ => false

/-- The number of quotes a value opens with. -/
def openingQuotes : List Char → Nat
  | '"' :: _ => 1
  | '\'' :: _ => 1
  | _ => 0

/-- The lines of a block below a key that stands at column `column`: all up to the first non-blank
line that is not indented past the key. -/
def block (column : Nat) (below : List (List Char)) : List (List Char) :=
  below.takeWhile fun l => allBlank l || column < indent l

/-- The indentation of a block, that of its first non-blank line. -/
def blockIndent? (body : List (List Char)) : Option Nat :=
  (body.find? fun l => !allBlank l).map indent

/-- The line and the column of a place in a block. -/
def inBlock? (lines : List (List Char)) (statement column line col : Nat) : Option (Nat × Nat) :=
  let body := block column (lines.drop (statement + 1))
  if body.length < line then none
  else (blockIndent? body).map fun n => (statement + line, n + (col - 1))

/-- The line and the column of a place in a script that stands on the line of its key. -/
def inLine? (statement before : Nat) (after : List Char) (line col : Nat) : Option (Nat × Nat) :=
  let value := trimStart after
  if line = 1 then
    some (statement, before + key.length + (after.length - value.length) + openingQuotes value +
      (col - 1))
  else none

/-- The range from a column to the end of its line; none when the line ends before it. -/
def mark? (lines : List (List Char)) (line column : Nat) : Option Place := do
  let width := (trimEnd (← lines[line]?)).length
  let stop := max (column + 1) width
  if column ≤ width ∧ line ≤ maxWord ∧ stop ≤ maxWord then
    some { line, start := column, stop }
  else none

/-- The place in the document of a line and a column of a script, both counted from one.
`statement` is the line of the key. -/
def place? (lines : List (List Char)) (statement line col : Nat) : Option Place := do
  if line = 0 ∨ col = 0 then none
  else
    let (before, after) ← splitKey [] (← lines[statement]?)
    let (l, c) ←
      if isBlockMark (trimStart after) then inBlock? lines statement before.length line col
      else inLine? statement before.length after line col
    mark? lines l c

end Script

end WorkflowLint

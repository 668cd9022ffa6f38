import WorkflowLint.Lint.Severity
import WorkflowLint.Text.Digit
/-!
# Reports of helpers

The tool hands scripts to helpers and wraps what they say into the message of one finding:

    lead-in: SC2086:info:1:5: Double quote to prevent globbing

The lead-in and the code with its severity may be missing. The two numbers are a line and a column
of the script, counted from one. Where a message can be read in several ways, a reading with a
lead-in goes before one without, and a short lead-in before a longer one.
-/

namespace WorkflowLint

structure HelperReport where
  code : Option String
  severity : Option Severity
  line : Nat
  column : Nat
  text : String
  deriving DecidableEq, Inhabited

namespace HelperReport

/-- The severities a helper names. -/
def severity? : List Char → Option Severity
  | ['e', 'r', 'r', 'o', 'r'] => some .error
  | ['w', 'a', 'r', 'n', 'i', 'n', 'g'] => some .warning
  | ['i', 'n', 'f', 'o'] => some .information
  | ['s', 't', 'y', 'l', 'e'] => some .hint
  | _ => none

/-- A message cut into its parts, none of them looked into. -/
structure Parts where
  code : Option (List Char)
  severity : List Char
  line : List Char
  column : List Char
  text : List Char
  deriving DecidableEq, Inhabited

/-- A non-empty run of characters of a class that a colon ends, and what follows the colon. -/
def runToColon? (class_ : Char → Bool) (s : List Char) : Option (List Char × List Char) :=
  match s.takeWhile class_, s.dropWhile class_ with
  | c :: cs, ':' :: rest => some (c :: cs, rest)
  | _, _ => none

/-- What follows the second number: a space, after a colon or not, and a text. -/
def textAfter? : List Char → Option (List Char)
  | ':' :: ' ' :: c :: cs => some (c :: cs)
  | ' ' :: c :: cs => some (c :: cs)
  | _ => none

/-- The two numbers and the text. -/
def place? (s : List Char) : Option (List Char × List Char × List Char) := do
  let (line, rest) ← runToColon? Text.isDigit s
  match rest.takeWhile Text.isDigit with
  | [] => none
  | column =>
    let text ← textAfter? (rest.dropWhile Text.isDigit)
    return (line, column, text)

/-- The code and the severity. -/
def code? : List Char → Option (List Char × List Char × List Char)
  | 'S' :: 'C' :: s => do
    let (digits, rest) ← runToColon? Text.isDigit s
    let (severity, rest) ← runToColon? Char.isLower rest
    return ('S' :: 'C' :: digits, severity, rest)
  | _ => none

def coded? (s : List Char) : Option Parts := do
  let (code, severity, rest) ← code? s
  let (line, column, text) ← place? rest
  return { code := some code, severity, line, column, text }

/-- A message without code, without lead-in. -/
def plain? (s : List Char) : Option Parts := do
  let (line, column, text) ← place? s
  return { code := none, severity := [], line, column, text }

/-- A message without lead-in. -/
def bare? (s : List Char) : Option Parts := coded? s <|> plain? s

/-- A message after the shortest lead-in that leaves one. -/
def led? : List Char → Option Parts
  | [] => none
  | ':' :: ' ' :: rest => bare? rest <|> led? (' ' :: rest)
  | _ :: rest => led? rest

/-- The parts of a message, which stands on one line. -/
def parts? (s : List Char) : Option Parts :=
  if s.contains '\n' then none else led? s <|> bare? s

/-- A number of 32 bits in ASCII digits. -/
def number? (digits : List Char) : Option Nat :=
  if digits.all Char.isDigit then
    let n := digits.foldl (fun n c => n * 10 + (c.toNat - 48)) 0
    if n < 0x100000000 then some n else none
  else none

def parse? (message : List Char) : Option HelperReport := do
  let p ← parts? (Text.trimEnd message)
  let line ← number? p.line
  let column ← number? p.column
  match Text.trim p.text with
  | [] => none
  | text =>
    return {
      code := p.code.map String.ofList
      severity := if p.code.isSome then severity? p.severity else none
      line, column
      text := String.ofList text }

end HelperReport

end WorkflowLint

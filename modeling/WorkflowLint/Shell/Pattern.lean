import WorkflowLint.Shell.Syntax
/-!
# Patterns

Patterns over texts: a star matches any text, a question mark any character, brackets one of some
characters, and a backslash takes the meaning of the character after it away.
-/

namespace WorkflowLint.Shell

/-- A part of a pattern. -/
inductive Wildcard where
  | one (c : Char)
  | any
  | many
  /-- A character in one of some ranges, or in none. -/
  | among (isNegated : Bool) (ranges : List (Char × Char))
  deriving DecidableEq, Inhabited

namespace Wildcard

def ranges : Text → List (Char × Char)
  | a :: '-' :: b :: s => (a, b) :: ranges s
  | a :: s => (a, a) :: ranges s
  | [] => []

/-- The text between brackets, which holds at least one character, and what follows it. -/
def bracketed : Text → Option (Text × Text)
  | [] => none
  | c :: s =>
    let inner := s.takeWhile (· ≠ ']')
    match s.drop inner.length with
    | ']' :: rest => some (c :: inner, rest)
    | _ => none

def ofText : Nat → Text → List Wildcard
  | 0, _ => []
  | _, [] => []
  | fuel + 1, '\\' :: c :: s => .one c :: ofText fuel s
  | fuel + 1, '*' :: s => .many :: ofText fuel s
  | fuel + 1, '?' :: s => .any :: ofText fuel s
  | fuel + 1, '[' :: s =>
    let isNegated := s.head? = some '!'
    match bracketed (if isNegated then s.drop 1 else s) with
    | some (inner, rest) => .among isNegated (ranges inner) :: ofText fuel rest
    | none => .one '[' :: ofText fuel s
  | fuel + 1, c :: s => .one c :: ofText fuel s

/-- Whether some end of a text, the text itself included, fulfils a condition. -/
def someEnd (p : Text → Bool) : Text → Bool
  | [] => p []
  | c :: s => p (c :: s) || someEnd p s

/-- Whether a part matches a character. -/
def takes (c : Char) : Wildcard → Bool
  | .one d => c = d
  | .any => true
  | .many => true
  | .among isNegated rs => isNegated ^^ rs.any fun (a, b) => a ≤ c && c ≤ b

/-- Whether parts match the whole of a text. -/
def accepts : List Wildcard → Text → Bool
  | [], s => s.isEmpty
  | .many :: ws, s => someEnd (accepts ws) s
  | _ :: _, [] => false
  | w :: ws, c :: s => w.takes c && accepts ws s

end Wildcard

def isMatch (pattern t : Text) : Bool :=
  Wildcard.accepts (Wildcard.ofText (pattern.length + 1) pattern) t

/-- A text as a pattern that matches nothing else. -/
def literal (t : Text) : Text := t.flatMap fun c => ['\\', c]

/-- The text without the part at its front, the shortest or the longest, that a pattern
matches. -/
def cutFront (isLongest : Bool) (pattern t : Text) : Text :=
  let lengths := List.range (t.length + 1)
  match (if isLongest then lengths.reverse else lengths).find? fun n => isMatch pattern (t.take n) with
  | some n => t.drop n
  | none => t

/-- The text without the part at its end, the shortest or the longest, that a pattern matches. -/
def cutBack (isLongest : Bool) (pattern t : Text) : Text :=
  let lengths := List.range (t.length + 1)
  match (if isLongest then lengths else lengths.reverse).find? fun n => isMatch pattern (t.drop n) with
  | some n => t.take n
  | none => t

end WorkflowLint.Shell

/-!
# Patterns over paths

A pattern is a list of parts that match one after another. Paths are byte strings; a name never
reaches over a slash.
-/

namespace WorkflowLint

/-- A part of a pattern. -/
inductive Glob.Part where
  /-- Nothing, a slash, or anything that ends in a slash. -/
  | directories
  /-- The bytes themselves. -/
  | literal (bytes : List UInt8)
  /-- Any bytes but a slash. -/
  | name
  /-- One of several byte strings. -/
  | oneOf (choices : List (List UInt8))
  deriving DecidableEq

abbrev Glob := List Glob.Part

namespace Glob

/-- The bytes after `lead`, if they begin with it. -/
def strip? : List UInt8 → List UInt8 → Option (List UInt8)
  | [], s => some s
  | _ :: _, [] => none
  | b :: lead, c :: s => if b = c then strip? lead s else none

/-- Whether `rest` accepts what follows some slash. -/
def afterSlash (rest : List UInt8 → Bool) : List UInt8 → Bool
  | [] => false
  | c :: s => (c = 0x2F && rest s) || afterSlash rest s

/-- Whether `rest` accepts what follows some bytes that are no slash. -/
def afterName (rest : List UInt8 → Bool) : List UInt8 → Bool
  | [] => rest []
  | c :: s => rest (c :: s) || (c ≠ 0x2F && afterName rest s)

/-- What a part accepts before `rest`. -/
def Part.accepts (rest : List UInt8 → Bool) (s : List UInt8) : Part → Bool
  | .directories => rest s || afterSlash rest s
  | .literal bytes => (strip? bytes s).any rest
  | .name => afterName rest s
  | .oneOf choices => choices.any fun bytes => (strip? bytes s).any rest

/-- Whether a pattern matches the whole of a byte string. -/
def accepts : Glob → List UInt8 → Bool
  | [], s => s.isEmpty
  | p :: ps, s => p.accepts (accepts ps) s

end Glob

end WorkflowLint

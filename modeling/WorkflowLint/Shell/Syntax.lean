/-!
# Scripts

The commands of the shell language that tools are scripted in. Text in a script is a list of bytes,
each held as the character of its number. A substitution is kept as it is written and read when it
is expanded.
-/

namespace WorkflowLint.Shell

/-- A text of bytes. -/
abbrev Text := List Char

def toBytes (t : Text) : List UInt8 := t.map fun c => c.toNat.toUInt8

def ofBytes (bs : List UInt8) : Text := bs.map fun b => Char.ofNat b.toNat

/-- What becomes of the value of a parameter. With `orEmpty` an empty value counts as none. -/
inductive Adjustment where
  | asIs
  | fallback (orEmpty : Bool) (word : Text)
  /-- Another word when there is a value. -/
  | instead (orEmpty : Bool) (word : Text)
  /-- A fallback that the parameter is set to. -/
  | default (orEmpty : Bool) (word : Text)
  | length
  /-- Without the part at the front that a pattern matches. -/
  | cutFront (isLongest : Bool) (pattern : Text)
  /-- Without the part at the end that a pattern matches. -/
  | cutBack (isLongest : Bool) (pattern : Text)
  deriving DecidableEq, Inhabited

/-- A part of a word. Quoted parts are not cut at blanks. -/
inductive Part where
  | text (s : Text) (isQuoted : Bool)
  | parameter (name : Text) (adjustment : Adjustment) (isQuoted : Bool)
  /-- What a script writes. -/
  | output (source : Text) (isQuoted : Bool)
  /-- The value of an expression. -/
  | number (source : Text) (isQuoted : Bool)
  deriving DecidableEq, Inhabited

def Part.isQuoted : Part → Bool
  | .text _ q | .parameter _ _ q | .output _ q | .number _ q => q

/-- Whether a part is what a script writes. -/
def Part.isOutput : Part → Bool
  | .output .. => true
  | _ => false

def Part.quote : Part → Part
  | .text t _ => .text t true
  | .parameter name adjustment _ => .parameter name adjustment true
  | .output source _ => .output source true
  | .number source _ => .number source true

abbrev Word := List Part

/-- The text of a word that is plain text. -/
def textOf (w : Word) : Text :=
  w.flatMap fun
    | .text t _ => t
    | _ => []

/-- What a redirection does to a channel. -/
inductive Direction where
  | input
  | output
  | append
  /-- Make it the same as another one, or close it. -/
  | duplicate
  /-- Read the target itself. -/
  | document
  deriving DecidableEq, Inhabited

structure Redirect where
  channel : Nat
  direction : Direction
  target : Word
  deriving DecidableEq, Inhabited

inductive Command where
  | simple (line : Nat) (settings : List (Text × Word)) (words : List Word)
      (redirects : List Redirect)
  | group (body : List Command) (redirects : List Redirect)
  | subshell (body : List Command) (redirects : List Redirect)
  | pipeline (isNegated : Bool) (stages : List Command)
  | both (first second : Command)
  | either (first second : Command)
  | background (c : Command)
  | branch (test body other : List Command)
  | loop (isUntil : Bool) (test body : List Command)
  /-- For each of some words, or of the arguments. -/
  | each (name : Text) (words : Option (List Word)) (body : List Command)
  /-- The first of some lists with a pattern that matches. -/
  | choose (word : Word) (arms : List (List Word × List Command))
  /-- Give a command a name. -/
  | define (name : Text) (body : Command)
  deriving Inhabited

/-- The redirections of a command as a whole. -/
def Command.redirects : Command → List Redirect
  | .simple _ _ _ rs | .group _ rs | .subshell _ rs => rs
  | _ => []

end WorkflowLint.Shell

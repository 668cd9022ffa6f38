import WorkflowLint.Shell.Syntax
/-!
# Expressions of scripts

Integer expressions over variables. Operators of one rank group to the left.
-/

namespace WorkflowLint.Shell.Arithmetic

/-- The operators, each rank binding tighter than the one before. -/
def ranks : List (List (String × (Int → Int → Int))) :=
  let truth := fun (b : Bool) => if b then (1 : Int) else 0
  let bits := fun (f : Nat → Nat → Nat) (a b : Int) => (f a.toNat b.toNat : Int)
  [ [("||", fun a b => truth (a ≠ 0 || b ≠ 0))],
    [("&&", fun a b => truth (a ≠ 0 && b ≠ 0))],
    [("|", bits (· ||| ·))],
    [("^", bits (· ^^^ ·))],
    [("&", bits (· &&& ·))],
    [("==", fun a b => truth (a = b)), ("!=", fun a b => truth (a ≠ b))],
    [("<=", fun a b => truth (a ≤ b)), (">=", fun a b => truth (b ≤ a)),
      ("<", fun a b => truth (a < b)), (">", fun a b => truth (b < a))],
    [("<<", bits (· <<< ·)), (">>", bits (· >>> ·))],
    [("+", (· + ·)), ("-", (· - ·))],
    [("*", (· * ·)), ("/", Int.tdiv), ("%", Int.tmod)] ]

def skip (s : Text) : Text := s.dropWhile Char.isWhitespace

/-- The operator a text begins with, and the rest. -/
def operator? (ops : List (String × (Int → Int → Int))) (s : Text) :
    Option ((Int → Int → Int) × Text) :=
  let isDoubled := ["&&".toList, "||".toList].contains (s.take 2)
  ops.findSome? fun (name, f) =>
    if name.toList.isPrefixOf s && !(isDoubled && name.length == 1) then
      some (f, s.drop name.length)
    else none

mutual

/-- An expression of some ranks. `value` gives the values of variables. -/
def expression (value : Text → Int) (ranks : List (List (String × (Int → Int → Int)))) :
    Nat → Text → Option (Int × Text)
  | 0, _ => none
  | fuel + 1, s =>
    match ranks with
    | [] => operand value fuel (skip s)
    | ops :: tighter => do
      let (a, rest) ← expression value tighter fuel s
      further value ops tighter fuel a rest

/-- Further operands of one rank. -/
def further (value : Text → Int) (ops : List (String × (Int → Int → Int)))
    (tighter : List (List (String × (Int → Int → Int)))) :
    Nat → Int → Text → Option (Int × Text)
  | 0, _, _ => none
  | fuel + 1, a, s =>
    match operator? ops (skip s) with
    | none => some (a, s)
    | some (f, rest) => do
      let (b, rest) ← expression value tighter fuel rest
      further value ops tighter fuel (f a b) rest

/-- A number, a variable or an expression in parentheses. -/
def operand (value : Text → Int) : Nat → Text → Option (Int × Text)
  | 0, _ => none
  | fuel + 1, s =>
    match s with
    | '(' :: rest => do
      let (a, rest) ← expression value ranks fuel rest
      match skip rest with
      | ')' :: rest => some (a, rest)
      | _ => none
    | '-' :: rest => (operand value fuel (skip rest)).map fun (a, rest) => (-a, rest)
    | '!' :: rest =>
      (operand value fuel (skip rest)).map fun (a, rest) => (if a = 0 then 1 else 0, rest)
    | c :: _ =>
      let name := s.takeWhile fun c => c.isAlphanum || c = '_'
      let rest := s.drop name.length
      if name = [] then none
      else if c.isDigit then (String.ofList name).toNat?.map fun n => ((n : Int), rest)
      else some (value name, rest)
    | [] => none

end

/-- The value of a whole text, if it is an expression. -/
def evaluate? (value : Text → Int) (s : Text) : Option Int := do
  let (a, rest) ← expression value ranks (16 * (s.length + 1)) s
  if skip rest = [] then some a else none

end WorkflowLint.Shell.Arithmetic

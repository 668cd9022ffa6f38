import WorkflowLint.Toml.Scalar
/-!
# Reading TOML documents

`Toml.parse?` reads a document, statement by statement, into its top-level table. Arrays and
inline tables nest to a fixed depth and may be spread over lines, with a comma after the last
item.
-/

namespace WorkflowLint.Toml

/-- The text after a comment, if one comes next and holds no control character. -/
def skipComment? (s : List Char) : Option (List Char) :=
  match s with
  | '#' :: rest =>
    let after := rest.dropWhile isPlain
    match after with
    | [] => some []
    | _ => (newline? after).map fun _ => after
  | s => some s

/-- The text after blanks, comments and line ends. -/
def skipLines? : Nat → List Char → Option (List Char)
  | 0, _ => none
  | fuel + 1, s => do
    let s ← skipComment? (s.dropWhile isSpace)
    match newline? s with
    | some rest => skipLines? fuel rest
    | none => return s

/-- The items of an array up to its bracket. -/
def items? (item : List Char → Option (Node × List Char)) :
    Nat → List Char → List Node → Option (List Node × List Char)
  | 0, _, _ => none
  | fuel + 1, s, acc => do
    match ← skipLines? (s.length + 1) s with
    | ']' :: rest => return (acc.reverse, rest)
    | s =>
      let (v, rest) ← item s
      match ← skipLines? (rest.length + 1) rest with
      | ',' :: rest => items? item fuel rest (v :: acc)
      | ']' :: rest => return ((v :: acc).reverse, rest)
      | _ => none

def pair? (item : List Char → Option (Node × List Char)) (s : List Char) :
    Option ((List String × String × Node) × List Char) := do
  let (parts, rest) ← key? (s.length + 1) s
  let last ← parts.getLast?
  let (v, rest) ← item ((← after? '=' rest).dropWhile isSpace)
  return ((parts.dropLast, last, v), rest)

/-- The fields of an inline table up to its brace. -/
def inline? (item : List Char → Option (Node × List Char)) :
    Nat → List Char → Fields → Option (Fields × List Char)
  | 0, _, _ => none
  | fuel + 1, s, fs => do
    match ← skipLines? (s.length + 1) s with
    | '\x7d' :: rest => return (fs, rest)
    | s =>
      let ((path, key, v), rest) ← pair? item s
      let fs ← assign path key v fs
      match ← skipLines? (rest.length + 1) rest with
      | ',' :: rest => inline? item fuel rest fs
      | '\x7d' :: rest => return (fs, rest)
      | _ => none

/-- A value whose arrays and inline tables nest at most `depth` deep. -/
def value? : (depth : Nat) → List Char → Option (Node × List Char)
  | depth, s =>
    match string? s with
    | some (cs, rest) => some (.string (String.ofList cs), rest)
    | none =>
      match s, depth with
      | '[' :: rest, depth + 1 => do
        let (items, rest) ← items? (value? depth) (rest.length + 1) rest []
        return (.array items, rest)
      | '\x7b' :: rest, depth + 1 => do
        let (fs, rest) ← inline? (value? depth) (rest.length + 1) rest []
        return (.inline fs, rest)
      | s, _ => do
        let (cs, rest) := word s
        return (← scalarOf? cs, rest)
termination_by structural depth => depth

/-- How deep arrays and inline tables nest. -/
def maxDepth : Nat := 80

/-- The text from the next line on, when nothing but a comment stands before it. -/
def endLine? (s : List Char) : Option (List Char) := do
  match ← skipComment? (s.dropWhile isSpace) with
  | [] => return []
  | s => newline? s

/-- A header's path, read after its brackets. -/
def header? (s : List Char) : Option ((List String × String) × List Char) := do
  let (parts, rest) ← key? (s.length + 1) s
  return ((parts.dropLast, ← parts.getLast?), rest)

def statement? (header : List String) (doc : Fields) (s : List Char) :
    Option (List String × Fields × List Char) :=
  match s with
  | '[' :: '[' :: rest => do
    let ((path, key), rest) ← header? rest
    let rest ← after? ']' (← after? ']' rest)
    return (path ++ [key], ← openItem path key doc, rest)
  | '[' :: rest => do
    let ((path, key), rest) ← header? rest
    let rest ← after? ']' rest
    return (path ++ [key], ← openTable path key doc, rest)
  | s => do
    let ((path, key, v), rest) ← pair? (value? maxDepth) s
    return (header, ← assignIn header path key v doc, rest)

def statements? : Nat → List String → Fields → List Char → Option Fields
  | 0, _, _, _ => none
  | fuel + 1, header, doc, s => do
    match ← skipLines? (s.length + 1) s with
    | [] => return doc
    | s =>
      let (header, doc, rest) ← statement? header doc s
      statements? fuel header doc (← endLine? rest)

/-- The text without a byte order mark. -/
def skipMark : List Char → List Char
  | c :: rest => if c = Char.ofNat 0xFEFF then rest else c :: rest
  | [] => []

/-- Read a document as one JSON object; none when it breaks a rule. -/
def parse? (text : List Char) : Option Json := do
  let s := skipMark text
  let fs ← statements? (s.length + 1) [] [] s
  return Json.object (← fieldsToJson? fs)

end WorkflowLint.Toml

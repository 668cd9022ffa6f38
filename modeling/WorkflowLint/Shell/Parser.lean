import WorkflowLint.Shell.Syntax
/-!
# Reading scripts

A script is read one command after another. Where it cannot be read on, the commands before that
place stand, and the number of the line is known.
-/

namespace WorkflowLint.Shell

/-- A reader: what it read and the rest, or nothing. -/
abbrev Reader (α : Type) := Text → Option (α × Text)

/-- Whether a character separates words. -/
def isSeparator (c : Char) : Bool := " \t\n;&|<>()".toList.contains c

/-- Whether a character may stand in a name. -/
def isNameChar (c : Char) : Bool := c.isAlphanum || c = '_'

/-- Skip blanks, joined lines and a comment. -/
def skipBlanks : Text → Text
  | ' ' :: s => skipBlanks s
  | '\t' :: s => skipBlanks s
  | '\\' :: '\n' :: s => skipBlanks s
  | '#' :: s => s.dropWhile (· ≠ '\n')
  | s => s

def skipGaps : Nat → Text → Text
  | 0, s => s
  | fuel + 1, s =>
    match skipBlanks s with
    | '\n' :: s => skipGaps fuel s
    | ';' :: ';' :: s => ';' :: ';' :: s
    | ';' :: s => skipGaps fuel s
    | s => s

/-- The text up to the quote that ends a single-quoted one. -/
def singleQuoted : Reader Text
  | [] => none
  | '\'' :: s => some ([], s)
  | c :: s => (singleQuoted s).map fun (t, rest) => (c :: t, rest)

/-- The text up to the parenthesis that closes `depth` open ones; `quote` is the quote it is in. -/
def balanced (depth : Nat) (quote : Option Char) : Reader Text
  | [] => none
  | c :: s =>
    let go := fun (depth : Nat) (quote : Option Char) =>
      (balanced depth quote s).map fun (t, rest) => (c :: t, rest)
    match quote with
    | some q => go depth (if c = q then none else some q)
    | none =>
      if c = '\'' ∨ c = '"' then go depth (some c)
      else if c = '(' then go (depth + 1) none
      else if c = ')' then if depth = 0 then some ([], s) else go (depth - 1) none
      else go depth none

/-- The text up to the brace that closes a parameter; `depth` counts the parameters inside it. -/
def braced (depth : Nat) : Reader Text
  | [] => none
  | '\\' :: c :: s => (braced depth s).map fun (t, rest) => ('\\' :: c :: t, rest)
  | '$' :: '\x7b' :: s =>
    (braced (depth + 1) s).map fun (t, rest) => ('$' :: '\x7b' :: t, rest)
  | c :: s =>
    if c ≠ '\x7d' then (braced depth s).map fun (t, rest) => (c :: t, rest)
    else if depth = 0 then some ([], s)
    else (braced (depth - 1) s).map fun (t, rest) => (c :: t, rest)

def backticked : Reader Text
  | [] => none
  | '\\' :: c :: s => (backticked s).map fun (t, rest) => (c :: t, rest)
  | c :: s =>
    if c.toNat = 0x60 then some ([], s)
    else (backticked s).map fun (t, rest) => (c :: t, rest)

/-- What is written after a parameter's name. -/
def adjustmentOf : Text → Adjustment
  | ':' :: '-' :: word => .fallback true word
  | '-' :: word => .fallback false word
  | ':' :: '+' :: word => .instead true word
  | '+' :: word => .instead false word
  | ':' :: '=' :: word => .default true word
  | '=' :: word => .default false word
  | '#' :: '#' :: pattern => .cutFront true pattern
  | '#' :: pattern => .cutFront false pattern
  | '%' :: '%' :: pattern => .cutBack true pattern
  | '%' :: pattern => .cutBack false pattern
  | _ => .asIs

/-- The parameter between braces. -/
def parameterOf (t : Text) (isQuoted : Bool) : Part :=
  match t with
  | '#' :: c :: name => .parameter (c :: name) .length isQuoted
  | _ =>
    let name := match t with
      | c :: _ => if isNameChar c then t.takeWhile isNameChar else [c]
      | [] => []
    .parameter name (adjustmentOf (t.drop name.length)) isQuoted

def dollar (isQuoted : Bool) : Reader Part
  | '(' :: '(' :: s => do
    let (t, rest) ← balanced 0 none s
    match rest with
    | ')' :: rest => some (.number t isQuoted, rest)
    | _ => none
  | '(' :: s => (balanced 0 none s).map fun (t, rest) => (.output t isQuoted, rest)
  | c :: s =>
    if c = '\x7b' then (braced 0 s).map fun (t, rest) => (parameterOf t isQuoted, rest)
    else if c.isDigit ∨ "@*#?$!-".toList.contains c then
      some (.parameter [c] .asIs isQuoted, s)
    else if isNameChar c then
      some (.parameter ((c :: s).takeWhile isNameChar) .asIs isQuoted,
        (c :: s).dropWhile isNameChar)
    else some (.text ['$'] isQuoted, c :: s)
  | [] => some (.text ['$'] isQuoted, [])

/-- A word up to the separator that ends it, or to the closing quote when `inQuotes`. -/
def parts : Nat → (inQuotes : Bool) → Reader Word
  | 0, _, _ => none
  | fuel + 1, inQuotes, s =>
    let more := fun (p : Part) (inQuotes : Bool) (rest : Text) =>
      (parts fuel inQuotes rest).map fun (ps, rest) => (p :: ps, rest)
    match s with
    | [] => if inQuotes then none else some ([], [])
    | '"' :: rest => more (.text [] true) (!inQuotes) rest
    | '$' :: rest => do
      let (p, rest) ← dollar inQuotes rest
      more p inQuotes rest
    | '\\' :: '\n' :: rest => parts fuel inQuotes rest
    | '\\' :: c :: rest =>
      if inQuotes ∧ ¬ ("$\"\\".toList.contains c ∨ c.toNat = 0x60) then
        more (.text ['\\', c] true) inQuotes rest
      else more (.text [c] true) inQuotes rest
    | c :: rest =>
      if c.toNat = 0x60 then do
        let (t, rest) ← backticked rest
        more (.output t inQuotes) inQuotes rest
      else if !inQuotes ∧ c = '\'' then do
        let (t, rest) ← singleQuoted rest
        more (.text t true) inQuotes rest
      else if !inQuotes ∧ isSeparator c then some ([], s)
      else more (.text [c] inQuotes) inQuotes rest

def word : Reader Word := fun s => parts (s.length + 1) false s

/-- The channel of a redirection and what follows it. -/
def redirectHead : Text → Option (Nat × Direction × Text)
  | '>' :: '>' :: s => some (1, .append, s)
  | '>' :: '&' :: s => some (1, .duplicate, s)
  | '>' :: '|' :: s => some (1, .output, s)
  | '>' :: s => some (1, .output, s)
  | '<' :: '&' :: s => some (0, .duplicate, s)
  | '<' :: '<' :: _ => none
  | '<' :: s => some (0, .input, s)
  | c :: s =>
    if c.isDigit then
      match s with
      | '>' :: _ => (redirectHead s).map fun (_, d, rest) => (c.toNat - 48, d, rest)
      | '<' :: _ => (redirectHead s).map fun (_, d, rest) => (c.toNat - 48, d, rest)
      | _ => none
    else none
  | [] => none

/-- The lines before the one that is `mark`, and what follows it. Tabs at the front of lines are
left out when `isTabbed`. -/
def documentLines (isTabbed : Bool) (mark : Text) : Nat → Text → Text × Text
  | 0, s => ([], s)
  | _, [] => ([], [])
  | fuel + 1, s =>
    let s := if isTabbed then s.dropWhile (· = '\t') else s
    let line := s.takeWhile (· ≠ '\n')
    let rest := (s.dropWhile (· ≠ '\n')).drop 1
    if line = mark then ([], rest)
    else
      let (t, rest) := documentLines isTabbed mark fuel rest
      (line ++ '\n' :: t, rest)

/-- A document after its two angles: it begins on the next line, and up to a line with its mark. -/
def document (channel : Nat) : Reader Redirect := fun s => do
  let isTabbed := s.head? = some '-'
  let (mark, rest) ← word (skipBlanks (if isTabbed then s.drop 1 else s))
  let after := (rest.dropWhile (· ≠ '\n')).drop 1
  let (body, after) := documentLines isTabbed (textOf mark) (after.length + 1) after
  let escaped := body.flatMap fun c => if c = '"' then ['\\', '"'] else [c]
  let target ← if mark.any Part.isQuoted then some [.text body true]
    else (parts (escaped.length + 2) true (escaped ++ ['"'])).map (·.1)
  some ({ channel, direction := .document, target },
    rest.takeWhile (· ≠ '\n') ++ '\n' :: after)

def redirect : Reader Redirect := fun s =>
  match s with
  | '<' :: '<' :: rest => document 0 rest
  | _ => do
    let (channel, direction, rest) ← redirectHead s
    let (target, rest) ← word (skipBlanks rest)
    if target = [] then none else some ({ channel, direction, target }, rest)

def redirects : Nat → Text → List Redirect × Text
  | 0, s => ([], s)
  | fuel + 1, s =>
    match redirect (skipBlanks s) with
    | some (r, rest) =>
      let (rs, rest) := redirects fuel rest
      (r :: rs, rest)
    | none => ([], s)

/-- The name and the value of a word that sets a variable. -/
def setting? (s : Text) : Option (Text × Text) :=
  match s.takeWhile isNameChar, s.dropWhile isNameChar with
  | c :: name, '=' :: rest => if c.isDigit then none else some (c :: name, rest)
  | _, _ => none

/-- A simple command under way. -/
structure Draft where
  settings : List (Text × Word) := []
  words : List Word := []
  redirects : List Redirect := []

/-- Read a simple command to its end. -/
def draft : Nat → Draft → Text → Option (Draft × Text)
  | 0, _, _ => none
  | fuel + 1, d, s =>
    let s := skipBlanks s
    match redirect s, if d.words = [] then setting? s else none, s with
    | some (r, rest), _, _ => draft fuel { d with redirects := d.redirects ++ [r] } rest
    | none, some (name, rest), _ => do
      let (value, rest) ← word rest
      draft fuel { d with settings := d.settings ++ [(name, value)] } rest
    | none, none, [] => some (d, [])
    | none, none, c :: rest =>
      if isSeparator c then some (d, c :: rest)
      else do
        let (w, rest) ← word (c :: rest)
        draft fuel { d with words := d.words ++ [w] } rest

/-- The characters up to a separator. -/
def bareWord (s : Text) : Text := s.takeWhile fun c => !isSeparator c

/-- The rest after a reserved word. -/
def expect (w : String) (s : Text) : Option Text :=
  if bareWord s = w.toList then some (s.drop w.length) else none

/-- The words of a list, up to the end of a line. -/
def words : Nat → Reader (List Word)
  | 0, _ => none
  | fuel + 1, s =>
    match skipBlanks s with
    | [] => some ([], [])
    | c :: rest =>
      if isSeparator c then some ([], c :: rest)
      else do
        let (w, rest) ← word (c :: rest)
        let (ws, rest) ← words fuel rest
        some (w :: ws, rest)

/-- The words that end a list of commands. -/
def closers : List String := ["then", "else", "elif", "fi", "do", "done", "esac", "\x7d"]

def endsList (s : Text) : Bool :=
  s.isEmpty || s.head? = some ')' || [';', ';'].isPrefixOf s || closers.any fun w => bareWord s = w.toList

/-- The patterns of an arm, up to the parenthesis after them. -/
def patterns : Nat → Reader (List Word)
  | 0, _ => none
  | fuel + 1, s => do
    let (w, rest) ← word (skipBlanks s)
    match skipBlanks rest with
    | '|' :: rest => do
      let (ws, rest) ← patterns fuel rest
      some (w :: ws, rest)
    | ')' :: rest => some ([w], rest)
    | _ => none

/-- The name that is given to a command here, and what follows. -/
def definition? (s : Text) : Option (Text × Text) :=
  let name := s.takeWhile isNameChar
  match name, skipBlanks (s.drop name.length) with
  | _ :: _, '(' :: rest =>
    match skipBlanks rest with
    | ')' :: rest => some (name, rest)
    | _ => none
  | _, _ => none

def redirected (c : List Redirect → Command) (s : Text) : Command × Text :=
  let (rs, rest) := redirects s.length s
  (c rs, rest)

/-- A compound command, put into a group when redirections follow. -/
def grouped (c : Command) (s : Text) : Command × Text :=
  redirected (fun rs => if rs = [] then c else .group [c] rs) s

def lineFeeds (s : Text) : Nat := s.count '\n'

mutual

/-- Commands up to where their list ends. `total` is the number of line feeds in the script. -/
def commands (total : Nat) : Nat → Reader (List Command)
  | 0, _ => none
  | fuel + 1, s => do
    let s := skipGaps s.length s
    if endsList s then some ([], s)
    else
      let (c, rest) ← statement total fuel s
      let (cs, rest) ← commands total fuel rest
      some (c :: cs, rest)

/-- Commands joined by their success, in the background or not, with the separator after them. -/
def statement (total : Nat) : Nat → Reader Command
  | 0, _ => none
  | fuel + 1, s => do
    let (first, rest) ← pipeline total fuel s
    let (c, rest) ← joined total fuel first rest
    match skipBlanks rest with
    | '&' :: rest => some (.background c, rest)
    | ';' :: ';' :: rest => some (c, ';' :: ';' :: rest)
    | ';' :: rest => some (c, rest)
    | '\n' :: rest => some (c, rest)
    | rest => if endsList rest then some (c, rest) else none

/-- What joins on to a command. -/
def joined (total : Nat) : Nat → Command → Reader Command
  | 0, _, _ => none
  | fuel + 1, first, s =>
    match skipBlanks s with
    | '&' :: '&' :: rest => do
      let (second, rest) ← pipeline total fuel (skipGaps rest.length rest)
      joined total fuel (.both first second) rest
    | '|' :: '|' :: rest => do
      let (second, rest) ← pipeline total fuel (skipGaps rest.length rest)
      joined total fuel (.either first second) rest
    | rest => some (first, rest)

def pipeline (total : Nat) : Nat → Reader Command
  | 0, _ => none
  | fuel + 1, s => do
    let isNegated := (expect "!" (skipBlanks s)).isSome
    let s := (expect "!" (skipBlanks s)).getD s
    let (c, rest) ← command total fuel (skipBlanks s)
    let (cs, rest) ← stages total fuel rest
    some (if cs = [] ∧ !isNegated then c else .pipeline isNegated (c :: cs), rest)

def stages (total : Nat) : Nat → Reader (List Command)
  | 0, _ => none
  | fuel + 1, s =>
    match skipBlanks s with
    | '|' :: '|' :: _ => some ([], s)
    | '|' :: rest => do
      let (c, rest) ← command total fuel (skipGaps rest.length rest)
      let (cs, rest) ← stages total fuel rest
      some (c :: cs, rest)
    | _ => some ([], s)

def command (total : Nat) : Nat → Reader Command
  | 0, _ => none
  | fuel + 1, s =>
    match s with
    | '(' :: rest => do
      let (body, rest) ← commands total fuel rest
      match rest with
      | ')' :: rest => some (redirected (.subshell body) rest)
      | _ => none
    | _ =>
      match String.ofList (bareWord s) with
      | "\x7b" => do
        let (body, rest) ← commands total fuel (s.drop 1)
        some (redirected (.group body) (← expect "\x7d" rest))
      | "if" => do
        let (c, rest) ← branch total fuel (s.drop 2)
        some (grouped c rest)
      | "while" => do
        let (test, body, rest) ← loop total fuel (s.drop 5)
        some (grouped (.loop false test body) rest)
      | "until" => do
        let (test, body, rest) ← loop total fuel (s.drop 5)
        some (grouped (.loop true test body) rest)
      | "for" => do
        let s := skipBlanks (s.drop 3)
        let name := s.takeWhile isNameChar
        let rest := skipBlanks (s.drop name.length)
        let (ws, rest) ← match expect "in" rest with
          | some rest => (words rest.length rest).map fun (ws, rest) => (some ws, rest)
          | none => some (none, rest)
        let rest ← expect "do" (skipGaps rest.length rest)
        let (body, rest) ← commands total fuel rest
        some (grouped (.each name ws body) (← expect "done" rest))
      | "case" => do
        let (w, rest) ← word (skipBlanks (s.drop 4))
        let rest ← expect "in" (skipGaps rest.length rest)
        let (as, rest) ← arms total fuel rest
        some (grouped (.choose w as) (← expect "esac" rest))
      | _ => do
        if let some (name, rest) := definition? s then
          let (body, rest) ← command total fuel (skipGaps rest.length rest)
          return (.define name body, rest)
        let line := total - lineFeeds s + 1
        let (d, rest) ← draft (s.length + 1) {} s
        if d.settings = [] ∧ d.words = [] ∧ d.redirects = [] then none
        else some (.simple line d.settings d.words d.redirects, rest)

def arms (total : Nat) : Nat → Reader (List (List Word × List Command))
  | 0, _ => none
  | fuel + 1, s => do
    let s := skipGaps s.length s
    if (expect "esac" s).isSome then some ([], s)
    else
      let (ws, rest) ← patterns s.length (if s.head? = some '(' then s.drop 1 else s)
      let (body, rest) ← commands total fuel rest
      match rest with
      | ';' :: ';' :: rest => do
        let (as, rest) ← arms total fuel rest
        some ((ws, body) :: as, rest)
      | rest => some ([(ws, body)], rest)

/-- The test and the body of a loop. -/
def loop (total : Nat) : Nat → Text → Option (List Command × List Command × Text)
  | 0, _ => none
  | fuel + 1, s => do
    let (test, rest) ← commands total fuel s
    let (body, rest) ← commands total fuel (← expect "do" rest)
    some (test, body, ← expect "done" rest)

def branch (total : Nat) : Nat → Reader Command
  | 0, _ => none
  | fuel + 1, s => do
    let (test, rest) ← commands total fuel s
    let (body, rest) ← commands total fuel (← expect "then" rest)
    match expect "elif" rest, expect "else" rest with
    | some rest, _ => do
      let (c, rest) ← branch total fuel rest
      some (.branch test body [c], rest)
    | none, some rest => do
      let (other, rest) ← commands total fuel rest
      some (.branch test body other, ← expect "fi" rest)
    | none, none => some (.branch test body [], ← expect "fi" rest)

end

/-- A script: the commands up to its end, or up to the line where it cannot be read. -/
def script (total : Nat) : Nat → Text → List Command × Option Nat
  | 0, s => ([], if s.isEmpty then none else some 0)
  | fuel + 1, s =>
    match skipGaps s.length s with
    | [] => ([], none)
    | s =>
      match statement total (s.length + 10) s with
      | none => ([], some (total - lineFeeds s + 1))
      | some (c, rest) =>
        let (cs, fault) := script total fuel rest
        (c :: cs, fault)

def parse (s : Text) : List Command × Option Nat := script (lineFeeds s) (s.length + 1) s

end WorkflowLint.Shell

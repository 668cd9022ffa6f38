import WorkflowLint.Shell.Arithmetic
import WorkflowLint.Shell.Builtin
/-!
# The interpreter of scripts

`execute` runs a program at a path: a script, by the interpreter its first line names, or a program
of the system. Every function has some fuel, which bounds how deep commands nest and how often a
loop goes round; a script that runs out of it does not end in time.
-/

namespace WorkflowLint.Shell

/-! ## Fields -/

/-- The characters that separate the fields of a line. -/
def separators (st : State) : Text := (st.bindings.get? "IFS".toList).getD [' ', '\t', '\n']

/-- Fields under way: the finished ones, last first, and the open one, back to front. -/
structure Fields where
  done : List Text := []
  open_ : Option Text := none

namespace Fields

def add (f : Fields) (t : Text) : Fields := { f with open_ := some (t.reverse ++ f.open_.getD []) }

/-- End the open field, if there is one. -/
def close (f : Fields) : Fields :=
  match f.open_ with
  | some t => { done := t.reverse :: f.done, open_ := none }
  | none => f

/-- Add text that is cut at separators. Blanks end a field that was begun, other separators one that
may be empty. -/
def addCut (separators : Text) (f : Fields) (t : Text) : Fields :=
  t.foldl (fun f c =>
    if !separators.contains c then f.add [c]
    else if c = ' ' ∨ c = '\t' ∨ c = '\n' then f.close
    else (f.add []).close) f

/-- Add texts that are fields of their own, the first one joined to the open field. -/
def addAll (f : Fields) (put : Fields → Text → Fields) : List Text → Fields
  | [] => f
  | [t] => put f t
  | t :: ts => addAll (put f t).close put ts

def toList (f : Fields) : List Text := f.close.done.reverse

end Fields

/-- The text without line feeds at its end. -/
def dropFinalLineFeeds (t : Text) : Text := (t.reverse.dropWhile (· = '\n')).reverse

/-- The words of the first line of a script that name its interpreter. -/
def interpreter? (content : Text) : Option (Text × Option Text) :=
  match content with
  | '#' :: '!' :: s =>
    let blank := fun c => c = ' ' || c = '\t'
    let line := (s.takeWhile (· ≠ '\n')).dropWhile blank
    let name := line.takeWhile fun c => !blank c
    let arg := (((line.dropWhile fun c => !blank c).dropWhile blank).reverse.dropWhile blank).reverse
    if name = [] then none else some (name, if arg = [] then none else some arg)
  | _ => none

/-- The path a command name leads to, with what stands there: along the search path, unless the
name holds a slash. -/
def findProgram (st : State) (name : Text) : Except FileFault (Path × FileEntry) :=
  let try_ := fun (p : Path) =>
    match st.files.find p with
    | .ok .directory => .error .denied
    | .ok (.file content true) => .ok (p, .file content true)
    | .ok (.file _ false) => .error .denied
    | .ok e => .ok (p, e)
    | .error f => .error f
  if name.contains '/' then try_ (st.path name)
  else
    let found := st.searchPath.filterMap fun dir => (try_ (dir.join ⟨toBytes name⟩)).toOption
    match found with
    | e :: _ => .ok e
    | [] => .error .notFound

/-- The commands of the shell itself. -/
def isBuiltin (name : String) : Bool :=
  [":", "true", "false", "echo", "printf", "test", "[", "kill", "pwd", "cd", "exit", "shift", "set",
    "unset", "export", "readonly", "local", "read", "trap", "wait", "umask", "ulimit", "break",
    "continue", "return", "exec", "eval", ".", "command"].contains name

/-- Whether an error in a redirection of a command ends the script. -/
def isSpecial (name : String) : Bool :=
  [":", "exit", "set", "shift", "unset", "export", "readonly", "trap", "break", "continue",
    "return", "exec", "eval", "."].contains name

def assign (st : State) (settings : List (Text × Text)) : State :=
  settings.foldl (fun st (name, value) =>
    { st with bindings := st.bindings.insert name value }) st

/-! ## Reading lines -/

/-- A line without the backslashes that escape its characters. -/
def unescapeLine : Text → Text
  | '\\' :: c :: s => c :: unescapeLine s
  | ['\\'] => []
  | c :: s => c :: unescapeLine s
  | [] => []

/-- A line cut into as many fields as there are names; the last one takes the rest. -/
def fieldsOf (isCut : Char → Bool) : List Text → Text → List (Text × Text)
  | [], _ => []
  | name :: names, s =>
    let isBlank := fun c => isCut c && (c = ' ' || c = '\t')
    let s := s.dropWhile isBlank
    if names = [] then [(name, (s.reverse.dropWhile isBlank).reverse)]
    else
      let rest := (s.dropWhile fun c => !isCut c).dropWhile isBlank
      let rest := match rest with
        | c :: after =>
          if isCut c ∧ (s.dropWhile fun c => !isCut c).head? = some c then after else rest
        | [] => []
      (name, s.takeWhile fun c => !isCut c) :: fieldsOf isCut names rest

/-- Read a line into names. -/
def readInto (st : State) (args : List Text) : State × Flow :=
  let isRaw := args.head? = some ['-', 'r']
  let names := if isRaw then args.drop 1 else args
  let cuts := separators st
  match st.readLine 0 with
  | (some t, st) =>
    let t := if isRaw then t else unescapeLine t
    (assign (st.ends 0) (fieldsOf cuts.contains names t), .next)
  | (none, st) => (assign (st.ends 1) (names.map (·, [])), .next)

/-- End what is going on, with the status of the last command or with another one. -/
def leave (st : State) (line : Nat) (name : String) (flow : Nat → Flow) (args : List Text) :
    State × Flow :=
  match args with
  | [] => (st, flow st.status)
  | t :: _ =>
    match number? t with
    | some n => (st.ends (n % 256), flow (n % 256))
    | none =>
      ((st.complain line s!"{name}: Illegal number: {String.ofList t}").ends 2, .ended 2)

/-- Run a command of the shell that runs no other. -/
def runBuiltin (st : State) (line : Nat) (name : String) (args : List Text) : State × Flow :=
  let ok := st.ends 0
  match name with
  | "echo" => (ok.write 1 (echoText st.isPlain args), .next)
  | "test" => (st.ends (if holdsAll st args then 0 else 1), .next)
  | "[" => (st.ends (if holdsAll st args.dropLast then 0 else 1), .next)
  | "kill" => kill st args
  | "cd" =>
    let target := st.path (args.headD [])
    if st.files.isDirectory target then
      ({ ok with cwd := target }, .next)
    else ((st.complain line s!"cd: can't cd to {String.ofList (args.headD [])}").ends 2, .next)
  | "exit" => leave st line name .ended args
  | "return" => leave st line name (fun _ => .returned) args
  | "trap" =>
    match args with
    | action :: names =>
      let signals := names.filterMap fun t => if t = "EXIT".toList then some 0 else signal? t
      ({ ok with traps := signals.foldl (fun traps n =>
        if action = ['-'] then traps.erase n else traps.insert n action) ok.traps }, .next)
    | [] => (ok, .next)
  | "shift" =>
    let n := match args with
      | t :: _ => (integerOf t).toNat
      | [] => 1
    ({ ok with args := ok.args.drop n }, .next)
  | "set" =>
    match args with
    | ['-', '-'] :: rest => ({ ok with args := rest }, .next)
    | ('-' :: flags) :: _ => ({ ok with isStrict := ok.isStrict || flags.contains 'e' }, .next)
    | ('+' :: flags) :: _ => ({ ok with isStrict := ok.isStrict && !flags.contains 'e' }, .next)
    | _ => (ok, .next)
  | "unset" => ({ ok with bindings := args.foldl Table.erase ok.bindings }, .next)
  | "export" => (assign ok (args.filterMap setting?), .next)
  | "readonly" => (assign ok (args.filterMap setting?), .next)
  | "local" => (assign ok (args.filterMap setting?), .next)
  | "read" => readInto st args
  | "wait" => ({ ok with clock := max ok.clock ok.jobsEnd }, .next)
  | "break" => (ok, .leftLoops (((args.head?).bind number?).getD 1))
  | "continue" => (ok, .nextRound (((args.head?).bind number?).getD 1 - 1))
  | "true" => (ok, .next)
  | "false" => (st.ends 1, .next)
  | "printf" => runNative st name args
  | "pwd" => runNative st name args
  | _ => (ok, .next)

namespace State

/-- The channels after a redirection, as far as can be told without expanding its target. -/
def redirectRoughly (channels : Table Nat Channel) (r : Redirect) : Table Nat Channel :=
  match r.direction, number? (textOf r.target) with
  | .duplicate, some n => channels.insert r.channel ((channels.get? n).getD .null)
  | _, _ => channels.insert r.channel .null

/-- Go on, unless a command failed that ends a strict script. -/
def unlessStrict (st : State) (inTest : Bool) (flow : Flow) : State × Flow :=
  if flow = .next && st.isStrict && !inTest && st.status ≠ 0 then (st, .ended st.status)
  else (st, flow)

/-- The state a script of its own starts in. -/
def renew (st : State) (isPlain : Bool) : State :=
  { st with isPlain, isStrict := false, functions := {}, traps := {}, status := 0 }

end State

mutual

def expandPart : Nat → State → Fields → Part → State × Fields
  | 0, st, f, _ => (st, f)
  | fuel + 1, st, f, p =>
    match p with
    | .text t _ => (st, f.add t)
    | .parameter name adjustment isQuoted =>
      let put := if isQuoted then Fields.add else Fields.addCut (separators st)
      let isEmptyList := st.args = [] && (name = ['@'] || name = ['*'])
      if adjustment = .asIs ∧ (name = ['@'] ∨ (name = ['*'] ∧ !isQuoted)) then
        (st, f.addAll put st.args)
      else
        let value := if isEmptyList then none else st.parameter? name
        let (st, result) := adjust fuel st name value adjustment
        match result with
        | some t => (st, put f t)
        | none => (st, if isQuoted then f.add [] else f)
    | .output source isQuoted =>
      let (n, inner) := st.newPipe []
      let (inner, _) := runScript fuel (inner.attach 1 (.pipe n)) source
      let st := st.resume inner
      let t := dropFinalLineFeeds (((st.pipes[n]?).getD []).reverse).flatten
      (st, if isQuoted then f.add t else f.addCut (separators st) t)
    | .number source isQuoted =>
      let (st, t) := expandText fuel st source
      let value := fun name => ((st.parameter? name).map integerOf).getD 0
      let u := match Arithmetic.evaluate? value t with
        | some n => (toString n).toList
        | none => []
      (st, if isQuoted then f.add u else f.addCut (separators st) u)

/-- The value of a parameter after its adjustment. -/
def adjust : Nat → State → Text → Option Text → Adjustment → State × Option Text
  | 0, st, _, value, _ => (st, value)
  | fuel + 1, st, name, value, adjustment =>
    let isThere := fun orEmpty => value.isSome && !(orEmpty && value = some [])
    match adjustment with
    | .asIs => (st, value)
    | .length => (st, some (toString (value.getD []).length).toList)
    | .fallback orEmpty word =>
      if isThere orEmpty then (st, value)
      else
        let (st, t) := expandText fuel st word
        (st, some t)
    | .instead orEmpty word =>
      if isThere orEmpty then
        let (st, t) := expandText fuel st word
        (st, some t)
      else (st, none)
    | .default orEmpty word =>
      if isThere orEmpty then (st, value)
      else
        let (st, t) := expandText fuel st word
        (assign st [(name, t)], some t)
    | .cutFront isLongest pattern =>
      let (st, p) := expandText fuel st pattern
      (st, value.map (cutFront isLongest p))
    | .cutBack isLongest pattern =>
      let (st, p) := expandText fuel st pattern
      (st, value.map (cutBack isLongest p))

def expandParts : Nat → State → Fields → Word → State × Fields
  | 0, st, f, _ => (st, f)
  | _, st, f, [] => (st, f)
  | fuel + 1, st, f, p :: ps =>
    let (st, f) := expandPart fuel st f p
    expandParts fuel st f ps

/-- Expand a text as if it stood in quotes. -/
def expandText : Nat → State → Text → State × Text
  | 0, st, _ => (st, [])
  | fuel + 1, st, t =>
    match parts (t.length + 1) true (t ++ ['"']) with
    | some (ps, _) =>
      let (st, f) := expandParts fuel st {} ps
      (st, [' '].intercalate f.toList)
    | none => (st, t)

def expandWord : Nat → State → Word → State × Text
  | 0, st, _ => (st, [])
  | fuel + 1, st, w =>
    let (st, f) := expandParts fuel st {} (w.map Part.quote)
    (st, [' '].intercalate f.toList)

/-- Expand a word to a pattern, in which what was quoted stands for itself. -/
def expandPattern : Nat → State → Word → State × Text
  | 0, st, _ => (st, [])
  | _, st, [] => (st, [])
  | fuel + 1, st, p :: ps =>
    let (st, f) := expandPart fuel st {} p.quote
    let t := [' '].intercalate f.toList
    let (st, rest) := expandPattern fuel st ps
    (st, (if p.isQuoted then literal t else t) ++ rest)

/-- Whether one of some patterns matches a text. -/
def matchesOne : Nat → State → Text → List Word → State × Bool
  | 0, st, _, _ => (st, false)
  | _, st, _, [] => (st, false)
  | fuel + 1, st, t, w :: ws =>
    let (st, p) := expandPattern fuel st w
    if isMatch p t then (st, true) else matchesOne fuel st t ws

def expandWords : Nat → State → List Word → State × List Text
  | 0, st, _ => (st, [])
  | _, st, [] => (st, [])
  | fuel + 1, st, w :: ws =>
    let (st, f) := expandParts fuel st {} w
    let (st, rest) := expandWords fuel st ws
    (st, f.toList ++ rest)

def expandSettings : Nat → State → List (Text × Word) → State × List (Text × Text)
  | 0, st, _ => (st, [])
  | _, st, [] => (st, [])
  | fuel + 1, st, (name, w) :: rest =>
    let (st, t) := expandWord fuel st w
    let (st, more) := expandSettings fuel st rest
    (st, (name, t) :: more)

/-- Redirect channels in order, up to the first that cannot be. -/
def redirectAll : Nat → State → List Redirect → State × Option String
  | 0, st, _ => (st, none)
  | _, st, [] => (st, none)
  | fuel + 1, st, r :: rs =>
    let (st, t) := expandWord fuel st r.target
    match st.redirect r t with
    | .ok st => redirectAll fuel st rs
    | .error message => (st, some message)

/-- Run commands one after another. In a test, failures do not end a strict script. -/
def runAll : Nat → Bool → State → List Command → State × Flow
  | 0, _, st, _ => (st, .endless)
  | _, _, st, [] => (st, .next)
  | fuel + 1, inTest, st, c :: cs =>
    match run fuel inTest st c with
    | (st, .next) => runAll fuel inTest st cs
    | r => r

/-- Run a part of a script in a state of its own. -/
def runApart : Nat → Bool → State → List Command → State × Flow
  | 0, _, st, _ => (st, .endless)
  | fuel + 1, inTest, st, cs =>
    match runAll fuel inTest st cs with
    | (inner, .killed n) => (st.resume inner, .killed n)
    | (inner, .endless) => (st.resume inner, .endless)
    | (inner, _) => (st.resume inner, .next)

/-- Run commands with channels redirected. -/
def runWith : Nat → Bool → State → List Redirect → List Command → State × Flow
  | 0, _, st, _, _ => (st, .endless)
  | fuel + 1, inTest, st, rs, cs =>
    match redirectAll fuel st rs with
    | (inner, some message) => ((inner.complain 0 message).ends 2, .next)
    | (inner, none) =>
      let (inner, flow) := runAll fuel inTest inner cs
      ({ inner with channels := st.channels }, flow)

/-- Run the stages of a pipeline, each reading what the one before it wrote. -/
def runStages : Nat → State → List Command → State × Flow
  | 0, st, _ => (st, .endless)
  | _, st, [] => (st, .next)
  | fuel + 1, st, [c] => runApart fuel true st [c]
  | fuel + 1, st, c :: cs =>
    let (n, inner) := st.newPipe []
    match runApart fuel true (inner.attach 1 (.pipe n)) [c] with
    | (inner, .next) =>
      let (last, flow) := runStages fuel ((st.resume inner).attach 0 (.pipe n)) cs
      (st.resume last, flow)
    | r => r

def run : Nat → Bool → State → Command → State × Flow
  | 0, _, st, _ => (st, .endless)
  | fuel + 1, inTest, st, c =>
    match c with
    | .simple line settings words redirects =>
      let (st, flow) := runSimple fuel st line settings words redirects
      st.unlessStrict inTest flow
    | .group body rs => runWith fuel inTest st rs body
    | .subshell body rs =>
      match redirectAll fuel st rs with
      | (inner, some message) => ((inner.complain 0 message).ends 2, .next)
      | (inner, none) =>
        let (inner, flow) := runApart fuel inTest inner body
        (st.resume inner).unlessStrict inTest flow
    | .pipeline isNegated stages =>
      match stages with
      | [c] =>
        let (st, flow) := run fuel true st c
        (if isNegated then st.ends (if st.status = 0 then 1 else 0) else st, flow)
      | _ =>
        let (inner, flow) := runStages fuel st stages
        let st := st.resume inner
        if isNegated then (st.ends (if st.status = 0 then 1 else 0), flow)
        else st.unlessStrict inTest flow
    | .both a b =>
      match run fuel true st a with
      | (st, .next) => if st.status = 0 then run fuel inTest st b else (st, .next)
      | r => r
    | .either a b =>
      match run fuel true st a with
      | (st, .next) => if st.status = 0 then (st, .next) else run fuel inTest st b
      | r => r
    | .choose w arms =>
      let (st, t) := expandWord fuel st w
      runChoice fuel inTest (st.ends 0) t arms
    | .define name body =>
      ({ st.ends 0 with functions := st.functions.insert name body }, .next)
    | .background c =>
      let outer := c.redirects.foldl State.redirectRoughly st.channels
      let holdsOutput := [1, 2].any fun n =>
        outer.get? n = some (.pipe 1) || outer.get? n = some (.pipe 2)
      let (inner, flow) := runApart fuel true (st.attach 0 .null) [c]
      let finish := if flow = .endless then st.limit else inner.clock
      let jobsEnd := if holdsOutput then max inner.jobsEnd finish else inner.jobsEnd
      ({ st.resume inner with clock := st.clock, jobsEnd, status := 0 }, .next)
    | .branch test body other =>
      match runAll fuel true st test with
      | (st, .next) =>
        if st.status = 0 then runAll fuel inTest st body
        else runAll fuel inTest (st.ends 0) other
      | r => r
    | .loop isUntil test body =>
      match runAll fuel true st test with
      | (st, .next) =>
        if (st.status = 0) = isUntil then (st.ends 0, .next)
        else
          match runAll fuel inTest st body with
          | (st, .leftLoops n) => (st.ends 0, if n ≤ 1 then .next else .leftLoops (n - 1))
          | (st, .next) => run fuel inTest st c
          | (st, .nextRound 0) => run fuel inTest st c
          | (st, .nextRound (n + 1)) => (st, .nextRound n)
          | r => r
      | r => r
    | .each name words body =>
      let (st, values) := match words with
        | some ws => expandWords fuel st ws
        | none => (st, st.args)
      runEach fuel inTest st name values body

/-- Run the first arm with a pattern that matches a text. -/
def runChoice : Nat → Bool → State → Text → List (List Word × List Command) → State × Flow
  | 0, _, st, _, _ => (st, .endless)
  | _, _, st, _, [] => (st, .next)
  | fuel + 1, inTest, st, t, (ws, body) :: arms =>
    match matchesOne fuel st t ws with
    | (st, true) => runAll fuel inTest st body
    | (st, false) => runChoice fuel inTest st t arms

/-- Run the rounds of a loop over values. -/
def runEach : Nat → Bool → State → Text → List Text → List Command → State × Flow
  | 0, _, st, _, _, _ => (st, .endless)
  | _, _, st, _, [], _ => (st, .next)
  | fuel + 1, inTest, st, name, t :: ts, body =>
    match runAll fuel inTest (assign st [(name, t)]) body with
    | (st, .leftLoops n) => (st.ends 0, if n ≤ 1 then .next else .leftLoops (n - 1))
    | (st, .next) => runEach fuel inTest st name ts body
    | (st, .nextRound 0) => runEach fuel inTest st name ts body
    | (st, .nextRound (n + 1)) => (st, .nextRound n)
    | r => r

def runSimple : Nat → State → Nat → List (Text × Word) → List Word → List Redirect → State × Flow
  | 0, st, _, _, _, _ => (st, .endless)
  | fuel + 1, st, line, settings, words, redirects =>
    let runsOther := (words ++ settings.map (·.2)).any fun w => w.any Part.isOutput
    let (st, fields) := expandWords fuel st words
    let (st, settings) := expandSettings fuel st settings
    match redirectAll fuel st redirects with
    | (inner, some message) =>
      let st := { (inner.complain line message).ends 2 with channels := st.channels }
      (st, if isSpecial (String.ofList (fields.headD [])) then .ended 2 else .next)
    | (inner, none) =>
      match fields with
      | [] =>
        let st := assign { inner with channels := st.channels } settings
        (if runsOther then st else st.ends 0, .next)
      | ['e', 'x', 'e', 'c'] :: rest =>
        match rest with
        | [] => (inner.ends 0, .next)
        | name :: args =>
          match runProgram fuel inner line name args with
          | (st, .next) => ({ st with traps := {} }, .ended st.status)
          | r => r
      | name :: args =>
        let (inner, flow) := runNamed fuel (assign inner settings) line name args
        (State.restore { inner with channels := st.channels } st (settings.map Prod.fst), flow)

def runNamed : Nat → State → Nat → Text → List Text → State × Flow
  | 0, st, _, _, _ => (st, .endless)
  | fuel + 1, st, line, name, args =>
    match st.functions.get? name with
    | some body =>
      let (inner, flow) := run fuel false { st with args } body
      ({ inner with args := st.args }, if flow = .returned then .next else flow)
    | none =>
    match String.ofList name, args with
    | "eval", args => runScript fuel (st.ends 0) ([' '].intercalate args)
    | ".", t :: _ =>
      match st.files.read (st.path t) with
      | .ok content =>
        let (st, flow) := runScript fuel st (ofBytes content)
        (st, if flow = .returned then .next else flow)
      | .error _ =>
        ((st.complain line s!".: cannot open {String.ofList t}: No such file").ends 2, .ended 2)
    | "command", ['-', 'v'] :: t :: _ =>
      if isBuiltin (String.ofList t) then ((st.ends 0).write 1 (t ++ ['\n']), .next)
      else
        match findProgram st t with
        | .ok (p, _) => ((st.ends 0).write 1 (ofBytes p.bytes ++ ['\n']), .next)
        | .error _ => (st.ends 127, .next)
    | "command", t :: rest => runNamed fuel st line t rest
    | s, args =>
      if isBuiltin s then
        match runBuiltin st line s args with
        | (st, .killed n) =>
          match if n = 9 then none else st.traps.get? n with
          | some action => runScript fuel st action
          | none => (st, .killed n)
        | r => r
      else
        match runProgram fuel st line name args with
        | (st, .killed n) => (st.ends (128 + n), .next)
        | (st, .endless) => (st, .endless)
        | (st, _) => (st, .next)

/-- Find a program and run it in a state of its own. -/
def runProgram : Nat → State → Nat → Text → List Text → State × Flow
  | 0, st, _, _, _ => (st, .endless)
  | fuel + 1, st, line, name, args =>
    match findProgram st name with
    | .ok (p, _) =>
      match execute fuel st (ofBytes p.bytes) args with
      | (inner, .ended n) => ((st.resume inner).ends n, .next)
      | (inner, flow) => (st.resume inner, flow)
    | .error .denied =>
      ((st.complain line s!"{String.ofList name}: Permission denied").ends 126, .next)
    | .error _ => ((st.complain line s!"{String.ofList name}: not found").ends 127, .next)

/-- Run a program that is there. -/
def execute : Nat → State → Text → List Text → State × Flow
  | 0, st, _, _ => (st, .endless)
  | fuel + 1, st, path, args =>
    match st.files.find (st.path path) with
    | .ok (.program "sh") => interpret fuel (st.renew false) path args
    | .ok (.program "bash") => interpret fuel (st.renew true) path args
    | .ok (.program "env") =>
      match args with
      | name :: rest =>
        match findProgram st name with
        | .ok (p, _) => execute fuel st (ofBytes p.bytes) rest
        | .error _ =>
          ((st.write 2 (path ++ ": '".toList ++ name ++ "': No such file or directory\n".toList)).ends 127,
            .next)
      | [] => (st.ends 0, .next)
    | .ok (.program name) => runNative st name args
    | .ok (.file content _) =>
      match interpreter? (ofBytes content) with
      | some (name, arg) => execute fuel st name (arg.toList ++ path :: args)
      | none => runWhole fuel { st.renew false with name := path, args } (ofBytes content)
    | _ => (st.ends 127, .next)

/-- Run what an interpreter is given: options, then a text or a file. -/
def interpret : Nat → State → Text → List Text → State × Flow
  | 0, st, _, _ => (st, .endless)
  | fuel + 1, st, path, args =>
    match args with
    | ['-', 'c'] :: source :: rest =>
      runWhole fuel { st with name := rest.headD path, args := rest.drop 1 } source
    | ('-' :: c :: flags) :: rest =>
      interpret fuel { st with isStrict := st.isStrict || (c :: flags).contains 'e' } path rest
    | file :: rest =>
      match st.files.read (st.path file) with
      | .ok content => runWhole fuel { st with name := file, args := rest } (ofBytes content)
      | .error _ =>
        ((st.write 2 (path ++ s!": 0: cannot open {String.ofList file}: No such file\n".toList)).ends
          2, .next)
    | [] =>
      let (source, st) := st.readAll 0
      runWhole fuel { st with name := path } source

/-- Run a script and its last words. -/
def runWhole : Nat → State → Text → State × Flow
  | 0, st, _ => (st, .endless)
  | fuel + 1, st, source =>
    match runScript fuel st source with
    | (st, .killed n) => (st, .killed n)
    | (st, .endless) => (st, .endless)
    | (st, flow) =>
      match st.traps.get? 0 with
      | none => (st, flow)
      | some action =>
        match runScript fuel { st with traps := st.traps.erase 0 } action with
        | (inner, .next) => (inner.ends st.status, .ended st.status)
        | r => r

def runScript : Nat → State → Text → State × Flow
  | 0, st, _ => (st, .endless)
  | fuel + 1, st, source =>
    let (cs, fault) := parse source
    match runAll fuel false st cs, fault with
    | (st, .next), some line => ((st.complain line "Syntax error").ends 2, .ended 2)
    | r, _ => r

end

end WorkflowLint.Shell

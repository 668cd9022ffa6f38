import WorkflowLint.Shell.Pattern
import WorkflowLint.Shell.State
/-!
# Commands without a script of their own

The commands that the shell and the system bring along, as far as scripts that stand in for a tool
need them.
-/

namespace WorkflowLint.Shell

/-! ## Escapes -/

/-- The value of octal digits. -/
def octal (t : Text) : Char :=
  Char.ofNat ((t.foldl (fun n c => n * 8 + (c.toNat - 48)) 0) % 256)

def isOctal (c : Char) : Bool := '0' ≤ c && c ≤ '7'

/-- The character a letter after a backslash stands for. -/
def escapeOf? : Char → Option Char
  | '\\' => some '\\'
  | 'n' => some '\n'
  | 't' => some '\t'
  | 'r' => some '\r'
  | 'a' => some (Char.ofNat 7)
  | 'b' => some (Char.ofNat 8)
  | 'f' => some (Char.ofNat 12)
  | 'v' => some (Char.ofNat 11)
  | _ => none

/-- A text with its escapes replaced; an octal one begins with a zero when `zeroed`. Whether
output goes on after it. -/
def unescape (zeroed : Bool) : Nat → Text → Text × Bool
  | 0, _ => ([], true)
  | _, [] => ([], true)
  | fuel + 1, '\\' :: c :: s =>
    let add := fun (t : Text) (rest : Text) =>
      let (u, goesOn) := unescape zeroed fuel rest
      (t ++ u, goesOn)
    match escapeOf? c with
    | some x => add [x] s
    | none =>
      if zeroed ∧ c = 'c' then ([], false)
      else if zeroed ∧ c = '0' then
        let digits := (s.take 3).takeWhile isOctal
        add [octal digits] (s.drop digits.length)
      else if !zeroed ∧ isOctal c then
        let digits := ((c :: s).take 3).takeWhile isOctal
        add [octal digits] ((c :: s).drop digits.length)
      else if !zeroed ∧ c = '"' then add ['"'] s
      else add ['\\', c] s
  | fuel + 1, c :: s =>
    let (u, goesOn) := unescape zeroed fuel s
    (c :: u, goesOn)

/-- What `echo` writes. -/
def echoText (isPlain : Bool) (args : List Text) : Text :=
  let (isBare, args) := match args with
    | ['-', 'n'] :: rest => (true, rest)
    | args => (false, args)
  let t := [' '].intercalate args
  let (u, goesOn) := if isPlain then (t, true) else unescape true (t.length + 1) t
  u ++ if isBare || !goesOn then [] else ['\n']

/-- The integer of a text; zero when it is none. -/
def integerOf (t : Text) : Int := ((String.ofList t).toInt?).getD 0

/-- The number of a text of digits. -/
def number? (t : Text) : Option Nat :=
  if t ≠ [] ∧ t.all Char.isDigit then (String.ofList t).toNat? else none

/-- A text on a field of some width. -/
def padded (isLeft : Bool) (fill : Char) (width : Nat) (t : Text) : Text :=
  let pad := List.replicate (width - t.length) fill
  if isLeft then t ++ pad else pad ++ t

/-- One round through a format, with the arguments left and whether output goes on. -/
def formatRound : Nat → Text → List Text → Text × List Text
  | 0, _, args => ([], args)
  | _, [], args => ([], args)
  | fuel + 1, '%' :: '%' :: s, args =>
    let (t, args) := formatRound fuel s args
    ('%' :: t, args)
  | fuel + 1, '%' :: s, args =>
    let flags := s.takeWhile fun c => c = '-' || c = '0'
    let s := s.drop flags.length
    let width := s.takeWhile Char.isDigit
    let s := s.drop width.length
    let n := ((String.ofList width).toNat?).getD 0
    let (places, s) := match s with
      | '.' :: s => (some (((String.ofList (s.takeWhile Char.isDigit)).toNat?).getD 0),
          s.dropWhile Char.isDigit)
      | s => (none, s)
    let isLeft := flags.contains '-'
    let fill := if flags.contains '0' && !isLeft then '0' else ' '
    let arg := args.headD []
    let field := match s with
      | 's' :: _ => padded isLeft ' ' n (arg.take (places.getD arg.length))
      | 'd' :: _ => padded isLeft fill n (toString (integerOf arg)).toList
      | 'i' :: _ => padded isLeft fill n (toString (integerOf arg)).toList
      | 'u' :: _ => padded isLeft fill n (toString (integerOf arg)).toList
      | 'x' :: _ => padded isLeft fill n (Nat.toDigits 16 (integerOf arg).toNat)
      | 'o' :: _ => padded isLeft fill n (Nat.toDigits 8 (integerOf arg).toNat)
      | 'c' :: _ => arg.take 1
      | 'b' :: _ => (unescape true (arg.length + 1) arg).1
      | _ => []
    let (t, args) := formatRound fuel (s.drop 1) (args.drop 1)
    (field ++ t, args)
  | fuel + 1, '\\' :: s, args =>
    let used := match s with
      | c :: _ => if isOctal c then ((s.take 3).takeWhile isOctal).length else 1
      | [] => 0
    let (u, _) := unescape false (used + 2) ('\\' :: s.take used)
    let (t, args) := formatRound fuel (s.drop used) args
    (u ++ t, args)
  | fuel + 1, c :: s, args =>
    let (t, args) := formatRound fuel s args
    (c :: t, args)

/-- What `printf` writes: the format is used again while arguments are left. -/
def printfText (format : Text) : Nat → List Text → Text
  | 0, _ => []
  | fuel + 1, args =>
    let (t, rest) := formatRound (format.length + 1) format args
    if rest = [] ∨ rest.length = args.length then t else t ++ printfText format fuel rest

/-! ## Tests -/

/-- Whether a condition holds. -/
def holds (st : State) : List Text → Bool
  | [] => false
  | ['!'] :: t :: rest => !holds st (t :: rest)
  | [t] => t ≠ []
  | [op, t] =>
    let find := st.files.find (st.path t)
    match String.ofList op with
    | "-n" => t ≠ []
    | "-z" => t = []
    | "-d" => find.toOption = some .directory
    | "-e" => find.toOption.isSome
    | "-r" => find.toOption.isSome
    | "-f" => find.toOption.isSome && find.toOption ≠ some .directory
    | "-s" => match find with
      | .ok (.file content _) => !content.isEmpty
      | .ok _ => true
      | .error _ => false
    | "-x" => match find with
      | .ok (.file _ x) => x
      | .ok _ => true
      | .error _ => false
    | _ => false
  | [a, op, b] =>
    match String.ofList op with
    | "=" => a = b
    | "!=" => a ≠ b
    | "-eq" => integerOf a = integerOf b
    | "-ne" => integerOf a ≠ integerOf b
    | "-lt" => integerOf a < integerOf b
    | "-le" => integerOf a ≤ integerOf b
    | "-gt" => integerOf b < integerOf a
    | "-ge" => integerOf b ≤ integerOf a
    | "-a" => a ≠ [] ∧ b ≠ []
    | "-o" => a ≠ [] ∨ b ≠ []
    | _ => false
  | _ => false

/-- Whether conditions joined by signs for `and` and `or` hold. -/
def holdsAll (st : State) (args : List Text) : Bool :=
  if args.length < 4 then holds st args
  else
    let groups := args.splitBy fun _ b => b ≠ ['-', 'o']
    groups.any fun g =>
      let g := if g.head? = some ['-', 'o'] then g.drop 1 else g
      (g.splitBy fun _ b => b ≠ ['-', 'a']).all fun h =>
        holds st (if h.head? = some ['-', 'a'] then h.drop 1 else h)

/-! ## Signals -/

/-- The signals by name. -/
def signals : List (String × Nat) :=
  [("HUP", 1), ("INT", 2), ("QUIT", 3), ("ILL", 4), ("TRAP", 5), ("ABRT", 6), ("BUS", 7),
    ("FPE", 8), ("KILL", 9), ("USR1", 10), ("SEGV", 11), ("USR2", 12), ("PIPE", 13), ("ALRM", 14),
    ("TERM", 15), ("CHLD", 17), ("CONT", 18), ("STOP", 19), ("URG", 23), ("WINCH", 28)]

/-- The signal of a name or a number. -/
def signal? (t : Text) : Option Nat :=
  let s := String.ofList t
  s.toNat?.or (signals.lookup (if "SIG".toList.isPrefixOf t then String.ofList (t.drop 3) else s))

/-- What a signal does to the script that gets it. -/
def receive (signal : Nat) : Flow :=
  if [0, 17, 18, 23, 28].contains signal then .next
  else if [19, 20, 21, 22].contains signal then .endless
  else .killed signal

def kill (st : State) (args : List Text) : State × Flow :=
  let (signal, targets) := match args with
    | ['-', 's'] :: name :: rest => (signal? name, rest)
    | ('-' :: name) :: rest => (signal? name, rest)
    | rest => (some 15, rest)
  match signal with
  | some n =>
    if targets.any fun t => t = State.processNumber ∨ t = ['0'] then (st.ends 0, receive n)
    else if targets.contains State.jobNumber then
      ({ st.ends 0 with jobsEnd := if receive n = .next then st.jobsEnd else st.clock }, .next)
    else (st.ends 1, .next)
  | none => (st.ends 2, .next)

/-! ## Programs -/

/-- The milliseconds of a decimal number of seconds, or of the unit after it. -/
def milliseconds (t : Text) : Nat :=
  let whole := ((String.ofList (t.takeWhile Char.isDigit)).toNat?).getD 0
  let rest := t.dropWhile Char.isDigit
  let digits := (rest.drop 1).takeWhile Char.isDigit
  let thousandths := (digits ++ ['0', '0', '0']).take 3
  let n := whole * 1000 + ((String.ofList thousandths).toNat?).getD 0
  match t.getLast? with
  | some 'm' => n * 60
  | some 'h' => n * 3600
  | some 'd' => n * 86400
  | _ => n

/-- Say that a program could not read a file. -/
def missFile (st : State) (name verb : String) (t : Text) (f : FileFault) : State :=
  (st.write 2 s!"{name}: {verb}{String.ofList t}: {f.name}\n".toList).ends 1

/-- What files hold, one after another; a dash and no files at all stand for the input. -/
def gather (st : State) (name : String) (files : List Text) : Text × State :=
  (if files = [] then [['-']] else files).foldl (fun (t, st) file =>
    if file = ['-'] then
      let (u, st) := st.readAll 0
      (t ++ u, st)
    else
      match st.readFile file with
      | .ok (u, st) => (t ++ u, st)
      | .error f => (t, missFile st name "" file f)) ([], st)

/-- What `cat` does with one of its arguments. -/
def catOne (st : State) (t : Text) : State :=
  if t = ['-'] then
    let (u, st) := st.readAll 0
    st.write 1 u
  else
    match st.readFile t with
    | .ok (u, st) => st.write 1 u
    | .error f => missFile st "cat" "" t f

def putFile (st : State) (name : String) (t content : Text) : State :=
  if State.isNull t then st
  else
    match st.files.write (st.path t) (toBytes content) with
    | .ok files => { st with files }
    | .error f => missFile st name "" t f

def firstLines : Nat → Text → Text
  | 0, _ => []
  | _, [] => []
  | n + 1, c :: s => if c = '\n' then c :: firstLines n s else c :: firstLines (n + 1) s

def linesOf (t : Text) : List Text :=
  let cut := t.splitBy fun a _ => a ≠ '\n'
  cut.map fun l => if l.getLast? = some '\n' then l else l ++ ['\n']

/-- The characters of a named class. -/
def classOf (name : String) : Text :=
  let range := fun (a b : Char) =>
    (List.range (b.toNat + 1 - a.toNat)).map fun i => Char.ofNat (a.toNat + i)
  match name with
  | "lower" => range 'a' 'z'
  | "upper" => range 'A' 'Z'
  | "digit" => range '0' '9'
  | "alpha" => range 'A' 'Z' ++ range 'a' 'z'
  | "space" => [' ', '\t', '\n', '\r', Char.ofNat 11, Char.ofNat 12]
  | _ => []

/-- The characters of a set, with its ranges and escapes written out. -/
def charactersOf : Nat → Text → Text
  | 0, _ => []
  | _, [] => []
  | fuel + 1, '[' :: ':' :: s =>
    let name := s.takeWhile (· ≠ ':')
    classOf (String.ofList name) ++ charactersOf fuel (s.drop (name.length + 2))
  | fuel + 1, '\\' :: c :: s =>
    let used := if isOctal c then (((c :: s).take 3).takeWhile isOctal).length else 1
    (unescape false (used + 2) ('\\' :: (c :: s).take used)).1 ++
      charactersOf fuel ((c :: s).drop used)
  | fuel + 1, a :: '-' :: b :: s =>
    (List.range (b.toNat + 1 - a.toNat)).map (fun i => Char.ofNat (a.toNat + i)) ++
      charactersOf fuel s
  | fuel + 1, c :: s => c :: charactersOf fuel s

/-- The character that stands for another one. -/
def translated (source target : Text) (c : Char) : Char :=
  match source.idxOf? c with
  | some i => (target[i]?).getD (target.getLastD c)
  | none => c

def occursIn (part : Text) : Text → Bool
  | [] => part.isEmpty
  | c :: s => part.isPrefixOf (c :: s) || occursIn part s

/-- The arguments that are no options. -/
def operands (args : List Text) : List Text :=
  args.filter fun t => t = ['-'] || t.head? ≠ some '-'

/-- Whether an option of one letter is among the arguments. -/
def hasOption (c : Char) (args : List Text) : Bool :=
  args.any fun t => t.head? = some '-' && t.contains c

/-- The part of a path after its last slash. -/
def baseName (t : Text) : Text := (t.reverse.takeWhile (· ≠ '/')).reverse

/-- The part of a path before its last slash. -/
def dirName (t : Text) : Text :=
  match (t.reverse.dropWhile (· ≠ '/')).drop 1 with
  | [] => if t.contains '/' then ['/'] else ['.']
  | r => r.reverse

/-- How much `yes` writes before its reader has enough. -/
def plenty : Nat := 200000

/-- Whether a text comes before another, or they are the same. -/
def inOrder (a b : Text) : Bool := !List.lex b a fun c d => c < d

/-- The names of the entries right below a place. -/
def entryNames (st : State) (place : FilePlace) : List Text :=
  let inside := st.files.entries.keys.filter fun k =>
    k.length = place.length + 1 && place.isPrefixOf k
  let names := inside.filterMap fun k => (k.getLast?).map ofBytes
  (names.filter fun t => t.head? ≠ some '.').mergeSort inOrder

/-- Run a program of the system on files. -/
def runOnFiles (st : State) (name : String) (args : List Text) : State :=
  match name with
  | "touch" =>
    args.foldl (fun st t => if st.files.exists (st.path t) then st else putFile st name t []) st
  | "mkdir" =>
    (operands args).foldl (fun st t =>
      match st.files.locate (st.path t) with
      | .ok _ => if hasOption 'p' args then st else st.ends 1
      | .error _ => { st with files := st.files.addDirectory (FileTree.placeOf (st.path t)) }) st
  | "rm" =>
    (operands args).foldl (fun st t =>
      match st.files.locate (st.path t) with
      | .ok place =>
        { st with files := ⟨⟨st.files.entries.entries.filter fun e => !place.isPrefixOf e.1⟩⟩ }
      | .error f =>
        if hasOption 'f' args then st else missFile st name "cannot remove '" (t ++ ['\'']) f) st
  | "cp" =>
    match operands args with
    | [a, b] =>
      match st.readFile a with
      | .ok (t, st) => putFile st name b t
      | .error f => missFile st name "cannot stat '" (a ++ ['\'']) f
    | _ => st.ends 1
  | "ls" =>
    let t := (operands args).headD ['.']
    match st.files.locate (st.path t) with
    | .ok place =>
      st.write 1 (if st.files.at? place = some .directory then
        (entryNames st place).flatMap (· ++ ['\n']) else t ++ ['\n'])
    | .error f => (missFile st name "cannot access '" ((operands args).headD [] ++ ['\'']) f).ends 2
  | "tee" =>
    let (t, st) := st.readAll 0
    (operands args).foldl (fun st file => putFile st name file t) (st.write 1 t)
  | _ => st

/-- Run a program of the system that filters lines. -/
def runFilter (st : State) (name : String) (args : List Text) : State :=
  let count := match args with
    | ['-', 'n'] :: n :: rest => some (n, rest)
    | ['-', 'c'] :: n :: rest => some (n, rest)
    | ('-' :: 'n' :: n) :: rest => some (n, rest)
    | ('-' :: 'c' :: n) :: rest => some (n, rest)
    | ('-' :: n) :: rest => some (n, rest)
    | _ => none
  let (n, files) := match count with
    | some (n, files) => ((integerOf n).toNat, files)
    | none => (10, args)
  match name with
  | "head" =>
    if hasOption 'c' (args.take 1) ∧ files = ["/dev/zero".toList] then
      st.write 1 (List.replicate n (Char.ofNat 0))
    else
      let (t, st) := gather st name files
      st.write 1 (if hasOption 'c' (args.take 1) then t.take n else firstLines n t)
  | "tail" =>
    let (t, st) := gather st name files
    let lines := linesOf t
    st.write 1 (if hasOption 'c' (args.take 1) then t.drop (t.length - n)
      else (lines.drop (lines.length - n)).flatten)
  | "sort" =>
    let (t, st) := gather st name (operands args)
    st.write 1 ((linesOf t).mergeSort inOrder).flatten
  | "tr" =>
    let (t, st) := st.readAll 0
    let sets := (operands args).map fun u => charactersOf (u.length + 1) u
    match sets with
    | [source, target] => st.write 1 (t.map (translated source target))
    | [source] => st.write 1 (t.filter fun c => !source.contains c)
    | _ => st.ends 1
  | "grep" =>
    match operands args with
    | part :: files =>
      let (t, st) := gather st name files
      let found := (linesOf t).filter fun l => occursIn part l ^^ hasOption 'v' args
      let st := if hasOption 'c' args then st.write 1 (toString found.length ++ "\n").toList
        else if hasOption 'q' args then st
        else st.write 1 found.flatten
      st.ends (if found = [] then 1 else 0)
    | [] => st.ends 2
  | "wc" =>
    let files := operands args
    let (t, st) := gather st name files
    let n := if hasOption 'l' args then t.count '\n' else t.length
    let label := match files with
      | [file] => ' ' :: file
      | _ => []
    st.write 1 ((toString n).toList ++ label ++ ['\n'])
  | _ => st

/-- Run a program of the system. -/
def runNative (st : State) (name : String) (args : List Text) : State × Flow :=
  let st := st.ends 0
  match name with
  | "true" => (st, .next)
  | "false" => (st.ends 1, .next)
  | "echo" => (st.write 1 (echoText true args), .next)
  | "printf" => (st.write 1 (printfText (args.headD []) (args.length + 1) args.tail), .next)
  | "pwd" => (st.write 1 (ofBytes st.cwd.bytes ++ ['\n']), .next)
  | "cat" => ((if args = [] then [['-']] else args).foldl catOne st, .next)
  | "sleep" =>
    st.sleep (if args.contains "infinity".toList then st.limit else (args.map milliseconds).foldl Nat.add 0)
  | "basename" =>
    let base := baseName (args.headD [])
    (st.write 1 (cutBack false (literal ((args[1]?).getD [])) base ++ ['\n']), .next)
  | "dirname" => (st.write 1 (dirName (args.headD []) ++ ['\n']), .next)
  | "seq" =>
    let first := if args.length < 2 then 1 else integerOf (args.headD [])
    let last := integerOf (args.getLastD [])
    let count := (last - first + 1).toNat
    (st.write 1 ((List.range count).flatMap fun (i : Nat) =>
      (toString (first + i) ++ "\n").toList), .next)
  | "yes" =>
    match st.channels.get? 1 with
    | some (.pipe (_ + 3)) =>
      let line := (if args = [] then ['y'] else [' '].intercalate args) ++ ['\n']
      (st.write 1 (List.replicate (plenty / line.length) line).flatten, .next)
    | _ => (st, .endless)
  | name =>
    if ["touch", "mkdir", "rm", "cp", "ls", "tee"].contains name then
      (runOnFiles st name args, .next)
    else (runFilter st name args, .next)

/-- The programs of the system that a script may run. -/
def programs : List String :=
  ["sh", "bash", "env", "true", "false", "echo", "printf", "pwd", "cat", "sleep", "basename",
    "dirname", "seq", "yes", "touch", "mkdir", "rm", "cp", "ls", "tee", "head", "tail", "sort", "tr",
    "grep", "wc"]

end WorkflowLint.Shell

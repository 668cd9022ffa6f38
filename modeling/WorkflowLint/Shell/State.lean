import WorkflowLint.FileTree
import WorkflowLint.Shell.Parser
/-!
# Running scripts

A script runs in a state that holds the file tree, what its channels lead to and how much time has
passed. Pipes hold all that was written to them; the first three are the standard input, output and
error output of the whole run.
-/

namespace WorkflowLint.Shell

/-- Where a channel leads. -/
inductive Channel where
  | null
  | pipe (number : Nat)
  | file (place : FilePlace)
  deriving DecidableEq, Inhabited

/-- How the commands after one go on. -/
inductive Flow where
  | next
  | ended (status : Nat)
  | killed (signal : Nat)
  /-- The script does not end in time. -/
  | endless
  /-- Some loops around are left. -/
  | leftLoops (count : Nat)
  /-- The next round of a loop is begun, after leaving some loops inside it. -/
  | nextRound (leaving : Nat)
  /-- A named command, or a script read by another one, is left. -/
  | returned
  deriving DecidableEq, Inhabited

/-- The state of a running script. -/
structure State where
  files : FileTree
  cwd : Path
  /-- The directories programs are looked for in. -/
  searchPath : List Path
  name : Text := []
  args : List Text := []
  bindings : Table Text Text := {}
  /-- The commands the script gave names. -/
  functions : Table Text Command := {}
  /-- What the script does when it gets a signal, or when it ends, which counts as signal zero. -/
  traps : Table Nat Text := {}
  status : Nat := 0
  /-- Whether a failing command ends the script. -/
  isStrict : Bool := false
  /-- Whether `echo` writes backslashes as they are. -/
  isPlain : Bool := false
  channels : Table Nat Channel := ⟨[(0, .pipe 0), (1, .pipe 1), (2, .pipe 2)]⟩
  /-- What was written to each pipe and not read, last first. -/
  pipes : List (List Text) := [[], [], []]
  /-- The milliseconds that have passed. -/
  clock : Nat := 0
  /-- When the run is given up. -/
  limit : Nat
  /-- When the last job in the background ends. -/
  jobsEnd : Nat := 0
  deriving Inhabited

namespace State

/-- The number a script knows itself by. -/
def processNumber : Text := "4711".toList

/-- The number a script knows its last job in the background by. -/
def jobNumber : Text := "4712".toList

def write (st : State) (channel : Nat) (t : Text) : State :=
  match st.channels.get? channel with
  | some (.pipe n) => { st with pipes := st.pipes.modify n (t :: ·) }
  | some (.file place) =>
    { st with files := ⟨st.files.entries.modify place fun
      | .file content x => .file (content ++ toBytes t) x
      | e => e⟩ }
  | _ => st

/-- Write an error message of the script, which begins with its name and the line. -/
def complain (st : State) (line : Nat) (message : String) : State :=
  st.write 2 (st.name ++ s!": {line}: {message}\n".toList)

def ends (st : State) (status : Nat) : State := { st with status }

/-- The bindings as they were before some names were bound. -/
def restore (st before : State) (names : List Text) : State :=
  names.foldl (fun st name =>
    { st with bindings :=
      match before.bindings.get? name with
      | some value => st.bindings.insert name value
      | none => st.bindings.erase name }) st

/-- Read all that a channel holds. -/
def readAll (st : State) (channel : Nat) : Text × State :=
  match st.channels.get? channel with
  | some (.pipe n) =>
    ((((st.pipes[n]?).getD []).reverse).flatten, { st with pipes := st.pipes.set n [] })
  | _ => ([], st)

/-- Read one line; none when there is nothing to read. -/
def readLine (st : State) (channel : Nat) : Option Text × State :=
  match st.channels.get? channel, st.readAll channel with
  | some (.pipe n), (c :: t, st) =>
    (some ((c :: t).takeWhile (· ≠ '\n')),
      { st with pipes := st.pipes.set n [((c :: t).dropWhile (· ≠ '\n')).drop 1] })
  | _, (_, st) => (none, st)

/-- A new pipe that holds a text. -/
def newPipe (st : State) (t : Text) : Nat × State :=
  (st.pipes.length, { st with pipes := st.pipes ++ [[t]] })

/-- Make a channel lead somewhere. -/
def attach (st : State) (channel : Nat) (c : Channel) : State :=
  { st with channels := st.channels.insert channel c }

/-- The state of `outer` with what a part of the script that ran in a state of its own leaves. -/
def resume (outer inner : State) : State :=
  { outer with
    files := inner.files
    pipes := inner.pipes
    clock := inner.clock
    jobsEnd := inner.jobsEnd
    status := inner.status }

/-- Let time pass. -/
def sleep (st : State) (delay : Nat) : State × Flow :=
  let st := { st with clock := st.clock + delay }
  (st.ends 0, if st.limit ≤ st.clock then .endless else .next)

/-- A path seen from the working directory. -/
def path (st : State) (t : Text) : Path := st.cwd.join ⟨toBytes t⟩

/-- The value of a parameter, if it is set. -/
def parameter? (st : State) (name : Text) : Option Text :=
  match String.ofList name with
  | "0" => some st.name
  | "#" => some (toString st.args.length).toList
  | "?" => some (toString st.status).toList
  | "$" => some processNumber
  | "!" => some jobNumber
  | "*" => some ([' '].intercalate st.args)
  | "@" => some ([' '].intercalate st.args)
  | "PWD" => some (ofBytes st.cwd.bytes)
  | s =>
    match s.toNat? with
    | some (n + 1) => st.args[n]?
    | _ => st.bindings.get? name

/-! ## Redirections -/

/-- What is said of a file that cannot be opened. -/
def openFault (f : FileFault) (verb : String) (t : Text) : String :=
  let reason := match f, verb with
    | .notFound, "create" => "Directory nonexistent"
    | .notFound, _ => "No such file"
    | f, _ => f.name
  s!"cannot {verb} {String.ofList t}: {reason}"

/-- The channel that a path of the system stands for. -/
def standing? (t : Text) : Option Nat :=
  [("/dev/stdin", 0), ("/dev/stdout", 1), ("/dev/stderr", 2)].lookup (String.ofList t)

/-- Whether a path stands for a file that is always empty. -/
def isNull (t : Text) : Bool := t = "/dev/null".toList

/-- What a file holds, and the state after reading it. -/
def readFile (st : State) (t : Text) : Except FileFault (Text × State) :=
  if isNull t then .ok ([], st)
  else
    match standing? t with
    | some n => .ok (st.readAll n)
    | none => (st.files.read (st.path t)).map fun content => (ofBytes content, st)

/-- Redirect a channel to a file or another channel; none with a message when it cannot be. -/
def redirect (st : State) (r : Redirect) (t : Text) : Except String State :=
  let known : Option Channel :=
    if isNull t then some .null else (standing? t).bind st.channels.get?
  match r.direction with
  | .document =>
    let (n, st) := st.newPipe t
    .ok (st.attach r.channel (.pipe n))
  | .input =>
    match known with
    | some c => .ok (st.attach r.channel c)
    | none =>
      match st.files.read (st.path t) with
      | .error f => .error (openFault f "open" t)
      | .ok content =>
        let (n, st) := st.newPipe (ofBytes content)
        .ok (st.attach r.channel (.pipe n))
  | .duplicate =>
    if t = ['-'] then .ok { st with channels := st.channels.erase r.channel }
    else
      match (String.ofList t).toNat?.bind st.channels.get? with
      | some c => .ok (st.attach r.channel c)
      | none => .error s!"{String.ofList t}: Bad file descriptor"
  | direction =>
    match known with
    | some c => .ok (st.attach r.channel c)
    | none =>
      let p := st.path t
      let keep := match direction, st.files.read p with
        | .append, .ok content => content
        | _, _ => []
      match st.files.writable p, st.files.write p keep with
      | .ok place, .ok files => .ok ({ st with files }.attach r.channel (.file place))
      | .error f, _ => .error (openFault f "create" t)
      | _, .error f => .error (openFault f "create" t)

end State

end WorkflowLint.Shell

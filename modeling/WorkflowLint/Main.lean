import WorkflowLint.CommandLine.Program
/-!
# The command

The outer layer of the program: it reads files, arguments and input, and writes what the library
makes of them. The tool is found among the files that are read, and its script is run by the
library's own shell.
-/

namespace WorkflowLint

namespace CommandLine

/-- The places a path leads through, with the double dots resolved by name. -/
def placesThrough (p : Path) : List FilePlace :=
  (p.components.foldl (fun (seen, place) c =>
    match c with
    | .normal name => (seen ++ [place], place ++ [name])
    | .parent => (seen ++ [place], place.dropLast)
    | _ => (seen, place)) (([] : List FilePlace), ([] : FilePlace))).1

/-- The place a path leads to, with the double dots resolved by name. -/
def placeAt (p : Path) : FilePlace :=
  p.components.foldl (fun place c =>
    match c with
    | .normal name => place ++ [name]
    | .parent => place.dropLast
    | _ => place) []

/-- Read files into a tree. A path that leads to a directory becomes one. -/
def readFiles (t : FileTree) (ps : List Path) : IO FileTree :=
  ps.foldlM (fun t p => do
    let t := (placesThrough p).foldl FileTree.addDirectory t
    try
      let bytes ← IO.FS.readBinFile p.display
      return t.add (placeAt p) (.file bytes.toList true)
    catch
      | .inappropriateType .. => return t.addDirectory (placeAt p)
      | _ => return t) t

/-- The surroundings of the program, with the files its configuration may be in. -/
def readSetting (files : List String) : IO Setting := do
  let home := (← IO.getEnv "HOME").getD ""
  let path := (← IO.getEnv "PATH").getD ""
  let cwd := Path.ofString (toString (← IO.currentDir))
  let searchPath := (path.splitOn ":").map Path.ofString
  let env := [("HOME", home), ("PATH", path)]
  let s : Setting := { machine := { files := {}, searchPath, env }, cwd }
  let wanted := s.userFile.toList ++ [Layer.workspaceFile cwd] ++
    files.map (Path.absolute cwd ∘ Path.ofString)
  let tree ← readFiles (FileTree.addDirectory {} (placeAt cwd)) wanted
  return { s with machine := ({ s.machine with files := tree } : Machine).withSystem }

/-- The surroundings with the files the tool may be, seen from a directory. -/
def readTool (s : Setting) (dir : Path) (executable : String) : IO Setting := do
  let p := Path.ofString executable
  let places := if Machine.isBare p then s.machine.searchPath.map (·.join p)
    else [Machine.seenFrom dir p]
  let files ← readFiles s.machine.files places
  return { s with machine := { s.machine with files } }

def Report.print (r : Report) : IO UInt32 := do
  (← IO.getStdout).write ⟨r.output.toArray⟩
  (← IO.getStdout).flush
  (← IO.getStderr).putStr r.errors
  return r.code.toUInt32

def checkFiles (o : CheckOptions) : IO UInt32 := do
  let s ← readSetting o.files
  let root := Check.root s o
  let files ← readFiles s.machine.files [Layer.workspaceFile root]
  let s := { s with machine := { s.machine with files } }
  match Check.settings s o with
  | .error _ => (check s o).print
  | .ok resolution => (check (← readTool s root resolution.settings.executable) o).print

/-- Run the tool for the calls of a step and answer them. -/
def answerCalls (s : Setting) (c : Server.Conversation) : IO Server.Conversation :=
  ((c.rehearsal.map (·.calls)).getD []).reverse.foldlM (fun c call => do
    let r := call.run.request
    let s ← readTool s r.workingDir r.settings.executable
    let (result, _) := s.machine.run Machine.defaultTimeout none r
    return c.answer call.number (.completed result)) c

def sendFrames (c : Server.Conversation) : IO Server.Conversation := do
  let output ← IO.getStdout
  output.write ⟨(Frame.writeAll c.frames).toArray⟩
  output.flush
  return c.clearStep

/-- Wait for bytes to come in while time passes in the conversation. -/
partial def awaitBytes (s : Setting) (c : Server.Conversation)
    (task : Task (Except IO.Error ByteArray)) : IO (Server.Conversation × List UInt8) := do
  if ← IO.hasFinished task then
    let bytes ← IO.ofExcept task.get
    return (c, bytes.toList)
  else
    let before ← IO.monoMsNow
    IO.sleep 10
    let c ← answerCalls s (c.advance ((← IO.monoMsNow) - before))
    awaitBytes s (← sendFrames c) task

/-- Serve an editor until it is gone. -/
partial def serveEditor (s : Setting) (c : Server.Conversation) : IO UInt32 := do
  match c.ended with
  | some (.ok e) => return e.code.toUInt32
  | some (.error f) =>
    ({ code := troubleCode, errors := faultText (Server.faultChain f) } : Report).print
  | none =>
    let task ← IO.asTask ((← IO.getStdin).read (Frame.wanted c.unread).toUSize)
    let (c, bytes) ← awaitBytes s c task
    let c := if bytes = [] then c.close else c.feed bytes
    serveEditor s (← sendFrames (← answerCalls s c))

/-- Start to serve. -/
def startServing : IO UInt32 := do
  let s ← readSetting []
  (← IO.getStderr).putStr (userFileComplaint s)
  serveEditor s { surroundings :=
    { files := s.machine.files, env := s.machine.env, userFile := s.userFile } }

def start (args : List String) : IO UInt32 := do
  match Job.ofArguments? args with
  | some .serve => startServing
  | some (.check o) => checkFiles o
  | _ =>
    match run? default args [] with
    | some r => r.print
    | none =>
      ({ code := troubleCode, errors := message "usage error" } : Report).print

end CommandLine

end WorkflowLint

def main (args : List String) : IO UInt32 := WorkflowLint.CommandLine.start args

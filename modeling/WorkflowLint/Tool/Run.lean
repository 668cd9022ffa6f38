import WorkflowLint.Shell.Run
import WorkflowLint.Tool.Machine
import WorkflowLint.Tool.Report
/-!
# Running the tool

A run that is cancelled before it begins, or while it goes on, comes to nothing, and that is no
failure. A run that takes longer than the time it is given is terminated.
-/

namespace WorkflowLint

inductive Ending where
  | exited (code : Nat)
  | killed (signal : Nat)
  /-- It did not end in time. -/
  | endless
  deriving DecidableEq, Inhabited

/-- What a program leaves. -/
structure Execution where
  ending : Ending
  output : List UInt8
  errors : List UInt8
  files : FileTree
  deriving Inhabited

namespace Machine

/-- How deep scripts nest and how often their loops go round. -/
def effort : Nat := 20000

def pathOf (place : FilePlace) : Path := ⟨Path.slash :: Path.glue place⟩

def execute (m : Machine) (limit : Nat) (dir program : Path) (args : List String)
    (input : String) : Execution :=
  let cwd := match m.files.locate dir with
    | .ok place => pathOf place
    | .error _ => dir
  let text := fun (s : String) => Shell.ofBytes (Text.Utf8.ofString s)
  let st : Shell.State :=
    { files := m.files
      cwd
      searchPath := m.searchPath
      bindings := ⟨m.env.map fun (name, value) => (text name, text value)⟩
      limit
      pipes := [[text input], [], []] }
  let (st, flow) := Shell.execute effort st (Shell.ofBytes program.bytes) (args.map text)
  let written := fun (n : Nat) => Shell.toBytes (((st.pipes[n]?).getD []).reverse).flatten
  let ending := match flow with
    | .killed n => Ending.killed n
    | .endless => .endless
    | _ => if limit ≤ max st.clock st.jobsEnd then .endless else .exited st.status
  { ending, output := written 1, errors := written 2, files := st.files }

/-- The time a run is given, in milliseconds. -/
def defaultTimeout : Nat := 10000

/-- The result of an execution that ended. -/
def resultOf (timeout : Nat) (isCancelled : Bool) (call : Invocation) (e : Execution) : RunResult :=
  let output := Text.Utf8.toStringLossy e.output
  let errors := Text.Utf8.toStringLossy e.errors
  let ended := { call with stderr := Report.quote (WorkflowLint.Text.trimmed errors) }
  match e.ending with
  | .exited code =>
    { outcome := .ofExit code output errors
      invocation := some { ended with exitCode := some (code : Int) } }
  | .killed signal =>
    { outcome := .failure (.terminated s!"killed by signal {signal}"), invocation := some ended }
  | .endless =>
    if isCancelled then .cancelled
    else
      { outcome := .failure (.terminated s!"timed out after {timeout}ms"), invocation := some call }

/-- Run the tool. `cancelAfter` is when the run is cancelled, if it is. -/
def run (m : Machine) (timeout : Nat) (cancelAfter : Option Nat) (r : Request) :
    RunResult × FileTree :=
  if cancelAfter = some 0 then (.cancelled, m.files)
  else
    let executable := r.settings.executable
    match m.findTool? r.workingDir executable with
    | none => ({ outcome := .failure (.notFound executable) }, m.files)
    | some program =>
      let call : Invocation := { program := program.display, args := r.arguments }
      match startFault? m.files r.workingDir program r.arguments with
      | some f =>
        ({ outcome := .failure (f.failure executable), invocation := some call }, m.files)
      | none =>
        let isCancelled := cancelAfter.any (· ≤ timeout)
        let limit := min timeout (cancelAfter.getD timeout)
        let e := m.execute limit r.workingDir program r.arguments r.text
        (resultOf timeout isCancelled call e, e.files)

/-- A machine with the usual programs of a system. -/
def withSystem (m : Machine) : Machine :=
  let dirs := ["bin", "usr/bin"].map fun s => FileTree.placeOf (Path.ofString s)
  let add := fun (t : FileTree) (dir : FilePlace) =>
    Shell.programs.foldl (fun t name => t.add (dir ++ [Text.Utf8.ofString name]) (.program name)) t
  { m with files := dirs.foldl add m.files }

end Machine

end WorkflowLint

import WorkflowLint.CommandLine.Arguments
import WorkflowLint.CommandLine.Tally
import WorkflowLint.Settings.File
import WorkflowLint.Settings.Resolution
import WorkflowLint.Tool.Run
/-!
# Checks

A check opens the workflow files among those it is given, runs the tool on each of them once, and
reports. Its documents are those an editor would open, and the same coordinator minds their runs, so
a file given twice is reported once.
-/

namespace WorkflowLint

namespace CommandLine

/-- What surrounds a command. -/
structure Setting where
  machine : Machine
  /-- The current directory, as an absolute path. -/
  cwd : Path
  deriving Inhabited

def Setting.userFile (s : Setting) : Option Path :=
  let home := s.machine.env.value "HOME"
  if home = "" then none else some (Layer.userFile (Path.ofString home))

namespace Check

/-- Why nothing is checked. -/
inductive Fault where
  | settings (f : ConfigFault)
  | noUrl (p : Path)
  | file (name : String) (f : FileFault)
  deriving DecidableEq, Inhabited

/-- The text of a fault, and its causes, the innermost last. -/
def Fault.chain : Fault → List String
  | .settings f =>
    match f with
    | .unreadable _ cause => [f.text, cause.text]
    | .malformed _ => [f.text]
  | .noUrl p => [Url.noUrlText p]
  | .file name f => ["reading " ++ name, f.text]

def root (s : Setting) (o : CheckOptions) : Path :=
  Path.absolute s.cwd (Path.ofString (o.root.getD "."))

/-- The layer of a file, if there is one. -/
def layer (s : Setting) (p : Path) : Except Fault (Option Layer) :=
  (Layer.load s.machine.files p).mapError .settings

def settings (s : Setting) (o : CheckOptions) : Except Fault Resolution := do
  let userFile ← match s.userFile with
    | some p => layer s p
    | none => .ok none
  let workspace ← layer s (Layer.workspaceFile (root s o))
  return ({ userFile, workspace } : Sources).resolve s.machine.env o.trusted

/-! ## Documents -/

/-- The files of a check. -/
structure Selection where
  documents : List Document := []
  /-- What the user called each document last. -/
  names : Table Url String := {}
  /-- The files that are no workflow files. -/
  skipped : List String := []
  deriving DecidableEq, Inhabited

/-- The language all files are taken for. -/
def language : String := "yaml"

def select (s : Setting) (x : Selection) (name : String) : Except Fault Selection :=
  let path := Path.absolute s.cwd (Path.ofString name)
  match Url.ofPath? path with
  | none => .error (.noUrl path)
  | some url =>
    if !Workflow.qualifies url language then .ok { x with skipped := x.skipped ++ [name] }
    else
      match s.machine.files.readText path with
      | .error f => .error (.file name f)
      | .ok text =>
        .ok { x with
          documents := x.documents ++ [{ url, language, version := 1, text }]
          names := x.names.insert url name }

/-- Add files in order, up to the first fault. What was selected before it is told as well. -/
def selectAll (s : Setting) (x : Selection) : List String → Selection × Option Fault
  | [] => (x, none)
  | name :: rest =>
    match select s x name with
    | .ok y => selectAll s y rest
    | .error f => (x, some f)

/-! ## Runs -/

/-- A check under way. -/
structure Progress where
  coordinator : Coordinator
  tally : Tally
  deriving DecidableEq, Inhabited

/-- Take the end of a run down. -/
def Progress.conclude (p : Progress) (run : Run) (result : RunEnd) : Progress :=
  let (coordinator, effects) := p.coordinator.handle (.finished run result)
  { coordinator, tally := p.tally.noteAll effects }

/-- Take the ends of runs down, in the order in which they come. -/
def Progress.concludeAll (p : Progress) (ends : List (Run × RunEnd)) : Progress :=
  ends.foldl (fun p e => p.conclude e.1 e.2) p

/-- Open the documents, and tell which runs that starts. -/
def start (settings : Settings) (root : Path) (x : Selection) : Progress × List Effect :=
  let (coordinator, effects) := Coordinator.launch settings [root] x.documents
  ({ coordinator, tally := ({ pending := x.names.keys } : Tally).noteAll effects }, effects)

/-- The runs that effects start, in their order. -/
def started (es : List Effect) : List Run :=
  es.filterMap fun
    | .start run => some run
    | _ => none

/-- The runs that effects cancel. -/
def cancelled (es : List Effect) : List Ticket :=
  es.filterMap fun
    | .cancelRun t => some t
    | _ => none

/-- Run the tool for one document after another. A run that was cancelled before comes to
nothing. -/
def runAll (m : Machine) (gone : List Ticket) : List Run → List (Run × RunEnd)
  | [] => []
  | run :: rest =>
    let cancelAfter := if gone.contains run.ticket then some 0 else none
    let (result, files) := m.run Machine.defaultTimeout cancelAfter run.request
    (run, .completed result) :: runAll { m with files } gone rest

def tally (m : Machine) (settings : Settings) (root : Path) (x : Selection) : Tally :=
  let (p, effects) := start settings root x
  (p.concludeAll (runAll m (cancelled effects) (started effects))).tally

end Check

end CommandLine

end WorkflowLint

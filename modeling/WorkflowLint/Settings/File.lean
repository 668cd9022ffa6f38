import WorkflowLint.FileTree
import WorkflowLint.Settings.Layer
import WorkflowLint.Toml.Parser
/-!
# Configuration files

A user has a configuration file at home, a workspace has one beside its workflows. A file that is
not there is no fault.
-/

namespace WorkflowLint

/-- Why a configuration file was not taken. -/
inductive ConfigFault where
  | unreadable (path : Path) (fault : FileFault)
  | malformed (path : Path)
  deriving DecidableEq, Inhabited

namespace ConfigFault

/-- What a message about a fault begins with. A malformed file is explained further by a text of
the parser's own. -/
def text : ConfigFault → String
  | .unreadable path fault => s!"failed to read config at {path.display}: {fault.text}"
  | .malformed path => s!"failed to parse config at {path.display}: TOML parse error"

end ConfigFault

namespace Layer

def workspaceFile (root : Path) : Path :=
  (root.join (Path.ofString ".github")).join (Path.ofString "flowlint.toml")

def userFile (home : Path) : Path :=
  (home.join (Path.ofString ".flowlint")).join (Path.ofString "config.toml")

/-- The layer a text holds. -/
def ofText? (s : String) : Option Layer := do
  match ofDocument (← Toml.parse? s.toList) with
  | .ok l => some l
  | .error _ => none

/-- The layer of a file, if there is one. The path is absolute. -/
def load (t : FileTree) (p : Path) : Except ConfigFault (Option Layer) :=
  if !t.exists p then .ok none
  else
    match t.readText p with
    | .error f => .error (.unreadable p f)
    | .ok s =>
      match ofText? s with
      | some l => .ok (some l)
      | none => .error (.malformed p)

/-- The layer of a file, a faulty one counting as none. -/
def load? (t : FileTree) (p : Path) : Option Layer :=
  match load t p with
  | .ok l => l
  | .error _ => none

end Layer

end WorkflowLint

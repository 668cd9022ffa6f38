import WorkflowLint.Settings.Basic
import WorkflowLint.Path
/-!
# Requests to the tool

A request holds all a run needs, taken down when the run begins. The tool reads the document from
its standard input, so the last argument is a dash.
-/

namespace WorkflowLint

/-- A request to check one document. -/
structure Request where
  /-- The document the request is about. -/
  document : String
  /-- The content to check. -/
  text : String
  /-- What the tool is told the document is called. -/
  relativePath : String
  /-- Where the tool runs. -/
  workingDir : Path
  settings : Settings
  deriving DecidableEq, Inhabited

namespace Request

def trusted (r : Request) : Bool := r.settings.trusted

/-- The template that makes the tool write one JSON array. -/
def format : String := "\x7b\x7bjson .\x7d\x7d"

/-- An option with its value, if there is one. -/
def option (name : String) : Option String → List String
  | some value => [name, value]
  | none => []

/-- The arguments but for the further ones and the dash. -/
def ownArguments (r : Request) : List String :=
  ["-format", format, "-stdin-filename", r.relativePath] ++
    r.settings.ignorePatterns.flatMap (["-ignore", ·]) ++
    option "-shellcheck" r.settings.shellcheck ++ option "-pyflakes" r.settings.pyflakes

def arguments (r : Request) : List String :=
  r.ownArguments ++ (if r.trusted then r.settings.extraArgs else []) ++ ["-"]

end Request

end WorkflowLint

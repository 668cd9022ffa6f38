import WorkflowLint.Lint.Severity
import WorkflowLint.Table
/-!
# Settings

The settings every decision is made by. They never change once made: a change of configuration
makes new ones.
-/

namespace WorkflowLint

/-- Which edits start a run. Opening and saving always do. -/
inductive Trigger where
  | onSave
  | onType
  deriving DecidableEq, Inhabited

inductive LogLevel where
  | error
  | warn
  | info
  | debug
  | trace
  deriving DecidableEq, Inhabited

def LogLevel.name : LogLevel → String
  | .error => "error"
  | .warn => "warn"
  | .info => "info"
  | .debug => "debug"
  | .trace => "trace"

/-- The effective settings. -/
structure Settings where
  enabled : Bool := true
  /-- The tool: a name to look up or a path. -/
  executable : String := "actionlint"
  trigger : Trigger := .onType
  /-- How long typing must pause before a run, in milliseconds. -/
  debounce : Nat := 300
  /-- Messages the tool is told to ignore. -/
  ignorePatterns : List String := []
  /-- A helper of the tool. -/
  shellcheck : Option String := none
  /-- A helper of the tool. -/
  pyflakes : Option String := none
  /-- Further arguments of the tool; none when the workspace is not trusted. -/
  extraArgs : List String := []
  /-- Severities that replace the usual ones, by kind of finding. -/
  ruleSeverity : Table String Severity := {}
  logLevel : LogLevel := .info
  trusted : Bool := false
  deriving DecidableEq, Inhabited

namespace Settings

def minDebounce : Nat := 50

def maxDebounce : Nat := 5000

/-- Whether edits start runs. -/
def lintsOnType (s : Settings) : Bool := s.trigger = .onType

end Settings

end WorkflowLint

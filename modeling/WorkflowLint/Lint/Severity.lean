import WorkflowLint.Text.Blank
/-!
# Severities

The four severities of a diagnostic, their names and the numbers editors know them by. Reading a
name is case-insensitive in ASCII and does not mind blanks around it.
-/

namespace WorkflowLint

inductive Severity where
  | error
  | warning
  | information
  | hint
  deriving DecidableEq, Inhabited

namespace Severity

/-- The number editors use. -/
def rank : Severity → Nat
  | .error => 1
  | .warning => 2
  | .information => 3
  | .hint => 4

/-- The short name, as it is printed. -/
def label : Severity → String
  | .error => "error"
  | .warning => "warning"
  | .information => "info"
  | .hint => "hint"

def name : Severity → String
  | .error => "error"
  | .warning => "warning"
  | .information => "information"
  | .hint => "hint"

/-- The severity of a name, full or short. -/
def ofName? (s : String) : Option Severity :=
  match (Text.trimmed s).toLower with
  | "error" => some .error
  | "warning" => some .warning
  | "information" => some .information
  | "info" => some .information
  | "hint" => some .hint
  | _ => none

/-- What is said of a name that is none. -/
def unknownText (s : String) : String :=
  s!"unknown severity '{s}' (expected error, warning, information or hint)"

end Severity

end WorkflowLint

import WorkflowLint.Lint.Severity
/-!
# Diagnostics

A diagnostic marks a range of columns on one line, counted from zero, the end excluded.
`Diagnostic.mark` makes the range non-empty inside 32 bits whatever columns it is given.
-/

namespace WorkflowLint

/-- The greatest 32-bit number. -/
def maxWord : Nat := 0xFFFFFFFF

/-- A marked range with a message. -/
structure Diagnostic where
  severity : Severity
  message : String
  line : Nat
  startCol : Nat
  endCol : Nat
  source : String
  code : String
  deriving DecidableEq, Inhabited

namespace Diagnostic

/-- The greatest first column: one that leaves room for an end. -/
def maxStart : Nat := maxWord - 1

/-- The tool all diagnostics are attributed to. -/
def toolName : String := "actionlint"

/-- The diagnostic with the given range, widened to one column when it is empty. -/
def mark (severity : Severity) (message : String) (line startCol endCol : Nat)
    (source code : String) : Diagnostic :=
  let start := min startCol maxStart
  { severity, message, line, source, code
    startCol := start
    endCol := max endCol (start + 1) }

/-- The diagnostic as a line of a report, counted from one. -/
def display (d : Diagnostic) (path : String) : String :=
  s!"{path}:{d.line + 1}:{d.startCol + 1}: {d.severity.label}: [{d.code}] {d.message}"

end Diagnostic

end WorkflowLint

import WorkflowLint.Lint.Finding
import WorkflowLint.Lint.HelperReport
import WorkflowLint.Lint.Script
import WorkflowLint.Table
/-!
# From findings to diagnostics

A finding counts lines and columns from one and includes its end column; a diagnostic counts from
zero and excludes the end. So the end column of a finding is the end column of its diagnostic.

The severity is the one chosen for the kind of finding, else the one a helper reported, else the
usual one of the kind, else error. A finding of a helper is marked where it belongs in the script
when the text of the document tells where that is.
-/

namespace WorkflowLint

/-- The kind of findings that name severities themselves. -/
def shellcheckKind : String := "shellcheck"

/-- The kind of findings about scripts in another language than the shell's. -/
def pyflakesKind : String := "pyflakes"

/-- The usual severities by kind of finding. -/
def usualSeverities : List (String × Severity) :=
  [("syntax-check", .error), ("expression", .error), ("action", .error), ("job-needs", .error),
    ("matrix", .error), ("events", .error), ("glob", .error), ("id", .error),
    ("workflow-call", .error), ("env-var", .error), ("shell-name", .error),
    ("permissions", .error), ("deprecated-commands", .warning), ("credentials", .warning),
    ("runner-label", .warning), ("if-cond", .warning), (pyflakesKind, .information)]

def usualSeverity? (kind : String) : Option Severity :=
  usualSeverities.lookup kind

namespace Finding

/-- A number cut to 32 bits. -/
def toWord (n : Int) : Nat := min n.toNat maxWord

/-- A number counted from one, counted from zero and cut to 32 bits. -/
def fromZero (n : Int) : Nat := toWord (n - 1)

def place (f : Finding) : Place :=
  let start := min (fromZero f.column) Diagnostic.maxStart
  { line := fromZero f.line
    start
    stop := if start < toWord f.endColumn then toWord f.endColumn else start + 1 }

def isHelpers (f : Finding) : Bool :=
  f.kind = shellcheckKind || f.kind = pyflakesKind

/-- What the helper reported. -/
def report? (f : Finding) : Option HelperReport :=
  if f.isHelpers then HelperReport.parse? f.message.toList else none

def severity (chosen : Table String Severity) (f : Finding) : Severity :=
  let reported := if f.kind = shellcheckKind then f.report?.bind (·.severity) else none
  ((chosen.get? f.kind).or (reported.or (usualSeverity? f.kind))).getD .error

def text (f : Finding) : String :=
  (f.report?.map (·.text)).getD f.message

/-- The code of the finding: its kind, and the helper's own code if there is one. -/
def code (f : Finding) : String :=
  match f.report?.bind (·.code) with
  | some code => f.kind ++ ":" ++ code
  | none => f.kind

/-- Where the diagnostic of the finding is marked. -/
def mark (lines : Option (List (List Char))) (f : Finding) : Place :=
  let inScript := do
    let r ← f.report?
    Script.place? (← lines) f.place.line r.line r.column
  inScript.getD f.place

/-- The diagnostic of a finding. `lines` are those of the document. -/
def diagnose (chosen : Table String Severity) (lines : Option (List (List Char))) (f : Finding) :
    Diagnostic :=
  let place := f.mark lines
  .mark (f.severity chosen) f.text place.line place.start place.stop Diagnostic.toolName f.code

@[simp] theorem message_diagnose (chosen : Table String Severity)
    (lines : Option (List (List Char))) (f : Finding) :
    (f.diagnose chosen lines).message = f.text := rfl

@[simp] theorem code_diagnose (chosen : Table String Severity)
    (lines : Option (List (List Char))) (f : Finding) :
    (f.diagnose chosen lines).code = f.code := rfl

end Finding

def diagnoseAll (chosen : Table String Severity) (text : Option String) (fs : List Finding) :
    List Diagnostic :=
  let lines := text.map fun s => Text.lines s.toList
  fs.map (·.diagnose chosen lines)

end WorkflowLint

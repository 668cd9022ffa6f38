/-!
# Status

What an editor shows of the tool's health and of the active document. Trouble with the tool itself
goes before anything about a document. `Health` only changes when a run ends, and a user is told
when it gets worse, not again while it stays.
-/

namespace WorkflowLint

/-- Where a document is in its runs. -/
inductive Phase where
  | idle
  | running
  /-- The last run failed in another way than the tool not being there. -/
  | failed
  | notInstalled
  | unexpectedOutput
  deriving DecidableEq, Inhabited

/-- The health of the tool, of all documents alike. -/
inductive Health where
  | good
  | notFound
  | unexpectedOutput
  deriving DecidableEq, Inhabited

/-- Whether moving to `next` brings trouble that was not there before. -/
def Health.worsens (now next : Health) : Bool := next ≠ .good && next ≠ now

/-- What an editor shows. -/
inductive Indicator where
  | idle
  | running
  | findings (count : Nat)
  | failed
  | notFound
  | unexpectedOutput
  deriving DecidableEq, Inhabited

namespace Indicator

/-- The indicator of a health and of the phase and the number of diagnostics of the active
document. -/
def derive : Health → Option (Phase × Nat) → Indicator
  | .notFound, _ => .notFound
  | .unexpectedOutput, _ => .unexpectedOutput
  | .good, none => .idle
  | .good, some (.running, _) => .running
  | .good, some (.failed, _) => .failed
  | .good, some (_, 0) => .idle
  | .good, some (_, n + 1) => .findings (n + 1)

def name : Indicator → String
  | .idle => "idle"
  | .running => "running"
  | .findings _ => "findings"
  | .failed => "failed"
  | .notFound => "binaryNotFound"
  | .unexpectedOutput => "unexpectedOutput"

def count? : Indicator → Option Nat
  | .findings n => some n
  | _ => none

def label : Indicator → String
  | .idle => "actionlint: ok"
  | .running => "actionlint: running"
  | .findings 1 => "actionlint: 1 problem"
  | .findings n => s!"actionlint: {n} problems"
  | .failed => "actionlint: error"
  | .notFound => "actionlint: not installed"
  | .unexpectedOutput => "actionlint: unexpected output"

end Indicator

inductive Urgency where
  | error
  | warning
  deriving DecidableEq, Inhabited

/-- A message to the user. -/
structure Notice where
  urgency : Urgency
  message : String
  /-- Whether the editor offers to show the log. -/
  offersLog : Bool := true
  deriving DecidableEq, Inhabited

end WorkflowLint

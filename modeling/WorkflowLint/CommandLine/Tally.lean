import WorkflowLint.Coordinator.Handler
/-!
# Tallies

What a check gathers while the runs of its documents end: the diagnostics of each document and the
problems, until every document has settled. What comes later is not looked at.
-/

namespace WorkflowLint

/-- What a check has gathered. -/
structure Tally where
  /-- The documents that have not settled. -/
  pending : List Url
  diagnostics : Table Url (List Diagnostic) := {}
  /-- The messages about what went wrong. -/
  problems : List String := []
  deriving DecidableEq, Inhabited

namespace Tally

def note (t : Tally) (e : Event) : Tally :=
  if t.pending = [] then t
  else
    match e with
    | .published url _ ds => { t with diagnostics := t.diagnostics.insert url ds }
    | .notice n => { t with problems := t.problems ++ [n.message] }
    | .settled url => { t with pending := t.pending.filter (· ≠ url) }
    | .status _ => t

def noteAll (t : Tally) (es : List Effect) : Tally :=
  es.foldl (fun t e =>
    match e with
    | .emit e => t.note e
    | _ => t) t

/-- The documents with diagnostics in ascending order of their URLs' texts. -/
def ordered (t : Tally) : List (Url × List Diagnostic) :=
  t.diagnostics.entries.mergeSort fun a b => a.1.text ≤ b.1.text

/-- The lines of a report, where the documents go by given names; one without a name is left
out. -/
def lines (t : Tally) (names : Table Url String) : List String :=
  t.ordered.flatMap fun (url, ds) =>
    match names.get? url with
    | some name => ds.map (·.display name)
    | none => []

/-- The exit code: problems go before findings. -/
def exitCode (problems findings : Nat) : Nat :=
  if 0 < problems then 2 else if 0 < findings then 1 else 0

end Tally

end WorkflowLint

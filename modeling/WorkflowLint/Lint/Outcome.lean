import WorkflowLint.Lint.Finding
/-!
# What a run of the tool comes to

A run ends in findings, in a warning that its output cannot be trusted, or in a failure. Only a
failure to find the executable counts as the tool not being installed.
-/

namespace WorkflowLint

/-- Why the tool could not be run or its output not be read. -/
inductive RunFailure where
  | notFound (path : String)
  | terminated (reason : String)
  | notStarted (code : Int) (message : String)
  | exitCode (code : Int) (output : String)
  | unexpectedFormat (detail : String)
  | unreadable (cause raw : String)
  deriving DecidableEq, Inhabited

namespace RunFailure

def text : RunFailure → String
  | .notFound path =>
    s!"actionlint executable not found at '{path}'. Install actionlint " ++
      "(https://github.com/rhysd/actionlint) or point `executable` at it."
  | .terminated reason => s!"actionlint was terminated: {reason}"
  | .notStarted code message => s!"failed to run actionlint (os error {code}): {message}"
  | .exitCode code output => s!"actionlint exited with code {code}: {output}"
  | .unexpectedFormat detail => s!"actionlint produced an unexpected output format: {detail}"
  | .unreadable cause raw => s!"failed to parse actionlint output ({cause}): {raw}"

def isNotFound : RunFailure → Bool
  | .notFound _ => true
  | _ => false

end RunFailure

inductive Outcome where
  | findings (fs : List Finding)
  | warning (message : String)
  | failure (f : RunFailure)
  deriving DecidableEq, Inhabited

/-- How the tool was invoked and what it left besides its output. -/
structure Invocation where
  program : String
  args : List String
  exitCode : Option Int := none
  stderr : String := ""
  deriving DecidableEq, Inhabited

structure RunResult where
  outcome : Outcome
  invocation : Option Invocation := none
  deriving DecidableEq, Inhabited

namespace RunResult

/-- A cancelled run counts as one without findings. -/
def cancelled : RunResult := { outcome := .findings [] }

end RunResult

end WorkflowLint

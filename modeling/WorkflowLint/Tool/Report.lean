import WorkflowLint.Json.Parser
import WorkflowLint.Lint.Outcome
import WorkflowLint.Text.Blank
import WorkflowLint.Text.Excerpt
/-!
# Reading what the tool left

The tool exits with 0 when all is well and with 1 when it has findings, which it writes as a JSON
array of objects. Any other code is a failure, and so is output of any other shape. Exit code 1
without findings means that something else answered in place of the tool.
-/

namespace WorkflowLint

namespace Report

/-- How many characters of output a message quotes. -/
def quotedLimit : Nat := 2000

/-- The output as a message quotes it. -/
def quote (s : String) : String := Text.excerpt quotedLimit s

/-- What kind of value a message says it found. -/
def kindOf : Json → String
  | .null => "null"
  | .bool _ => "a boolean"
  | .number _ => "a number"
  | .string _ => "a string"
  | .array _ => "an array"
  | .fields _ => "an object"

/-- What a failed run has to say: its errors, else its output. -/
def complaint (stdout stderr : String) : String :=
  let errors := Text.trimmed stderr
  let output := Text.trimmed stdout
  quote (if errors ≠ "" then errors else if output ≠ "" then output else "(no output)")

/-- No findings. -/
def nothing (code : Int) (stderr : String) : Outcome :=
  if code = 0 then .findings []
  else
    let errors := Text.trimmed stderr
    .warning ("actionlint exited with code 1 but reported no findings; the executable may be a " ++
      "broken shim or wrapper" ++ if errors = "" then "" else ": " ++ quote errors)

/-- Read one element; the index is for the message. -/
def finding (index : Nat) (v : Json) : Except RunFailure Finding :=
  match v with
  | .fields _ => (Finding.read v).mapError fun e => .unexpectedFormat s!"element {index}: {e.text}"
  | v => .error (.unexpectedFormat s!"element {index} is {kindOf v}, not an object")

/-- Read the elements in order; the first that is no finding spoils all. -/
def findings (index : Nat) : List Json → Except RunFailure (List Finding)
  | [] => .ok []
  | v :: vs => do
    let f ← finding index v
    return f :: (← findings (index + 1) vs)

/-- The outcome of a run that ended with an exit code of 0 or 1 and a JSON value. -/
def ofValue (code : Int) (stderr : String) : Json → Outcome
  | .null => nothing code stderr
  | .array [] => nothing code stderr
  | .array vs =>
    match findings 0 vs with
    | .ok fs => .findings fs
    | .error e => .failure e
  | v => .failure (.unexpectedFormat s!"expected a JSON array, got {kindOf v}")

end Report

/-- The outcome of a run that ended with an exit code. -/
def Outcome.ofExit (code : Int) (stdout stderr : String) : Outcome :=
  if code ≠ 0 ∧ code ≠ 1 then .failure (.exitCode code (Report.complaint stdout stderr))
  else
    let output := Text.trimmed stdout
    if output = "" then Report.nothing code stderr
    else
      match Json.parse (Text.Utf8.ofString output) with
      | .ok v => Report.ofValue code stderr v
      | .error e => .failure (.unreadable e.text (Report.quote output))

end WorkflowLint

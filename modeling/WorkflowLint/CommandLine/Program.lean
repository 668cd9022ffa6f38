import WorkflowLint.CommandLine.Check
import WorkflowLint.CommandLine.Help
import WorkflowLint.Server.Conversation
/-!
# The program

From arguments, input and surroundings to an exit code and what is written. Findings go to the
output; all that concerns the program itself goes to the errors, line by line after its name.
-/

namespace WorkflowLint

namespace CommandLine

/-- What a command leaves. -/
structure Report where
  code : Nat
  output : List UInt8 := []
  errors : String := ""
  deriving DecidableEq, Inhabited

/-- The exit code when something went wrong with the command itself. -/
def troubleCode : Nat := 2

/-- A message on lines of its own. -/
def message (s : String) : String := programName ++ ": " ++ s ++ "\n"

/-- The causes of a fault, numbered when there is more than one. -/
def causesText : List String → String
  | [] => ""
  | [cause] => "\n\nCaused by:\n    " ++ cause
  | causes => "\n\nCaused by:" ++ String.join
      (causes.zipIdx.map fun (cause, n) =>
        "\n" ++ String.ofList (List.replicate (5 - (toString n).length) ' ') ++ s!"{n}: {cause}")

def faultText : List String → String
  | [] => message ""
  | fault :: causes => message (fault ++ causesText causes)

def skippedText (name : String) : String :=
  message ("skipping " ++ name ++ ": not a workflow under .github/workflows/")

/-! ## Jobs -/

def check (s : Setting) (o : CheckOptions) : Report :=
  match Check.settings s o with
  | .error f => { code := troubleCode, errors := faultText f.chain }
  | .ok resolution =>
    let warnings := resolution.warnings.map fun w => message ("warning: " ++ w.text)
    let (x, fault?) := Check.selectAll s {} o.files
    let before := String.join (warnings ++ x.skipped.map skippedText)
    match fault? with
    | some f => { code := troubleCode, errors := before ++ faultText f.chain }
    | none =>
      if x.documents = [] then { code := 0, errors := before }
      else
        let t := Check.tally s.machine resolution.settings (Check.root s o) x
        let lines := t.lines x.names
        { code := Tally.exitCode t.problems.length lines.length
          output := Text.Utf8.ofString (String.join (lines.map (· ++ "\n")))
          errors := before ++ String.join (t.problems.map message) }

/-- What is wrong with the user's configuration file, said before serving begins. -/
def userFileComplaint (s : Setting) : String :=
  match s.userFile.map (Layer.load s.machine.files) with
  | some (.error f) => message f.text
  | _ => ""

/-- Serve an editor whose bytes have all come in. -/
def serve (s : Setting) (input : List UInt8) : Report :=
  let surroundings : Surroundings :=
    { files := s.machine.files, env := s.machine.env, userFile := s.userFile }
  let c := (({ surroundings } : Server.Conversation).feed input).close
  let output := Frame.writeAll c.frames
  let before := userFileComplaint s
  match c.ended with
  | some (.error f) =>
    { code := troubleCode, output, errors := before ++ faultText (Server.faultChain f) }
  | some (.ok e) => { code := e.code, output, errors := before }
  | none => { code := 0, output, errors := before }

/-- Do what arguments ask for; none when they are wrong. -/
def run? (s : Setting) (args : List String) (input : List UInt8) : Option Report :=
  (Job.ofArguments? args).map fun
    | .serve => serve s input
    | .check o => check s o
    | .help topic => { code := 0, output := Text.Utf8.ofString topic.text }
    | .version => { code := 0, output := Text.Utf8.ofString versionText }

end CommandLine

end WorkflowLint

/-!
# Arguments

What a user asks for on the command line. Options are read from the left, and the first option that
asks for help or for the version decides, unless something before it is wrong. After a double dash
every argument is a file. `Job.ofArguments?` has no answer for arguments that are wrong.
-/

namespace WorkflowLint

namespace CommandLine

/-- What help is about. -/
inductive Topic where
  | program
  | serve
  | check
  | help
  deriving DecidableEq, Inhabited

/-- What to check, and how. -/
structure CheckOptions where
  /-- Whether the workspace is trusted. -/
  trusted : Bool := false
  /-- The root of the workspace, when it is not the current directory. -/
  root : Option String := none
  /-- The files as the user named them. -/
  files : List String := []
  deriving DecidableEq, Inhabited

/-- What a user asks for. -/
inductive Job where
  | serve
  | check (options : CheckOptions)
  | help (topic : Topic)
  | version
  deriving DecidableEq, Inhabited

/-- An argument by its dashes. -/
inductive Word where
  | plain (text : String)
  /-- A double dash alone. -/
  | escape
  /-- A name after two dashes, and what stands after an equals sign. -/
  | long (name : List Char) (value : Option (List Char))
  /-- Letters after one dash. -/
  | short (first : Char) (others : List Char)
  deriving DecidableEq, Inhabited

/-- The name and the value of an option without its dashes. -/
def splitEquals (s : List Char) : List Char × Option (List Char) :=
  (s.takeWhile (· ≠ '='),
    match s.dropWhile (· ≠ '=') with
    | [] => none
    | _ :: value => some value)

/-- Read one argument. A single dash alone is no option. -/
def Word.ofString (s : String) : Word :=
  match s.toList with
  | ['-', '-'] => .escape
  | '-' :: '-' :: rest => .long (splitEquals rest).1 (splitEquals rest).2
  | '-' :: c :: rest => .short c rest
  | _ => .plain s

/-- Whether a word is the option of a name, without a value. -/
def Word.isFlag (w : Word) (name : String) : Bool := w = .long name.toList none

def Word.asksHelp : Word → Bool
  | .short 'h' _ => true
  | w => w.isFlag "help"

def Word.asksVersion : Word → Bool
  | .short 'V' _ => true
  | w => w.isFlag "version"

namespace Job

/-- Add files, none of which may have an empty name. -/
def withFiles (o : CheckOptions) (names : List String) : Option CheckOptions :=
  if names.contains "" then none else some { o with files := o.files ++ names }

/-- Set the root, once and not to an empty name. -/
def withRoot (o : CheckOptions) (root : String) : Option CheckOptions :=
  if o.root.isSome ∨ root = "" then none else some { o with root := some root }

/-- A check needs files. -/
def finishCheck (o : CheckOptions) : Option Job :=
  if o.files = [] then none else some (.check o)

/-- Read the arguments of a check. `stdio` says whether that option came already, `rootNext` that the
next argument is the root. -/
def check? (stdio rootNext : Bool) (o : CheckOptions) : List String → Option Job
  | [] => if rootNext then none else finishCheck o
  | a :: rest =>
    let w := Word.ofString a
    match w with
    | .plain name =>
      ((if rootNext then withRoot o name else withFiles o [name])).bind
        fun o => check? stdio false o rest
    | .escape => if rootNext then none else (withFiles o rest).bind finishCheck
    | .long name value =>
      if rootNext then none
      else if name = "root".toList then
        match value with
        | some v => (withRoot o (String.ofList v)).bind fun o => check? stdio false o rest
        | none => check? stdio true o rest
      else if w.isFlag "trusted" ∧ !o.trusted then
        check? stdio false { o with trusted := true } rest
      else if w.isFlag "stdio" ∧ !stdio then check? true false o rest
      else if w.asksHelp then some (.help .check)
      else none
    | .short .. => if !rootNext ∧ w.asksHelp then some (.help .check) else none

def serve? (stdio : Bool) : List String → Option Job
  | [] => some .serve
  | a :: rest =>
    let w := Word.ofString a
    if w = .escape then (if rest = [] then some .serve else none)
    else if w.isFlag "stdio" ∧ !stdio then serve? true rest
    else if w.asksHelp then some (.help .serve)
    else none

def help? : List String → Option Job
  | [] => some (.help .program)
  | ["serve"] => some (.help .serve)
  | ["check"] => some (.help .check)
  | ["help"] => some (.help .help)
  | _ => none

/-- Read arguments up to the name of a job. Without one, the job is to serve. -/
def read? (stdio : Bool) : List String → Option Job
  | [] => some .serve
  | "serve" :: rest => serve? false rest
  | "check" :: rest => check? false false {} rest
  | "help" :: rest => help? rest
  | a :: rest =>
    let w := Word.ofString a
    if w = .escape then (if rest = [] then some .serve else none)
    else if w.isFlag "stdio" ∧ !stdio then read? true rest
    else if w.asksHelp then some (.help .program)
    else if w.asksVersion then some .version
    else none

def ofArguments? (args : List String) : Option Job := read? false args

end Job

end CommandLine

end WorkflowLint

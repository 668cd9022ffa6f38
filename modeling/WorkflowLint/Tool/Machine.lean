import WorkflowLint.FileTree
import WorkflowLint.Lint.Outcome
import WorkflowLint.Settings.Reference
import WorkflowLint.Tool.Request
/-!
# Finding and starting the tool

A machine has files and a search path. The tool is named by a bare name, which is looked for along
the search path, or by a path, which is seen from the working directory. A file that is there but
cannot be run is still found, so that starting it tells why.
-/

namespace WorkflowLint

/-- A machine the tool runs on. -/
structure Machine where
  files : FileTree
  searchPath : List Path
  env : Environment := []
  deriving Inhabited

namespace Machine

/-- Whether a path leads to a file that may be run. -/
def isRunnable (t : FileTree) (p : Path) : Bool :=
  match t.find p with
  | .ok (.file _ x) => x
  | .ok (.program _) => true
  | _ => false

/-- The path of a name that is itself a path, seen from a directory. A dot at its front is left
out. -/
def seenFrom (dir p : Path) : Path :=
  if p.isAbsolute then p
  else
    match p.components with
    | .current :: cs => cs.foldl Path.push dir
    | cs => cs.foldl Path.push dir

/-- Whether a name is looked for along the search path. -/
def isBare (p : Path) : Bool := p.components.length ≤ 1

/-- The runnable file of a name. -/
def lookUp? (m : Machine) (dir p : Path) : Option Path :=
  if isBare p then (m.searchPath.map (·.join p)).find? (isRunnable m.files)
  else some (seenFrom dir p) |>.filter (isRunnable m.files)

/-- The file of a name, runnable or not. -/
def findTool? (m : Machine) (dir : Path) (executable : String) : Option Path :=
  let p := Path.ofString executable
  (m.lookUp? dir p).or (some (dir.join p) |>.filter fun q => (m.files.file? q).isSome)

/-! ## Starting -/

/-- Why a program was not started. -/
inductive StartFault where
  | file (f : FileFault)
  /-- A path or an argument holds a byte that ends texts. -/
  | nul
  deriving DecidableEq, Inhabited

/-- The failure of a run that was not started. A file that is missing counts as the tool missing,
whichever file it is. -/
def StartFault.failure (executable : String) : StartFault → RunFailure
  | .file .notFound => .notFound executable
  | .file f => .notStarted ((f.number?.map Int.ofNat).getD (-1)) f.text
  | .nul => .notStarted (-1) "nul byte found in provided data"

/-- What the first line of a file names as its interpreter. -/
def interpreter? (content : List UInt8) : Option (List UInt8) :=
  match content with
  | 0x23 :: 0x21 :: rest =>
    let isBlank := fun (b : UInt8) => b = 0x20 || b = 0x09
    let name := ((rest.takeWhile (· ≠ 0x0A)).dropWhile isBlank).takeWhile fun b => !isBlank b
    if name = [] then none else some name
  | _ => none

/-- Why a file cannot be run, followed from interpreter to interpreter. -/
def runFault? (t : FileTree) (dir : Path) : Nat → Path → Option FileFault
  | 0, _ => some .notExecutable
  | fuel + 1, p =>
    match t.find (dir.join p) with
    | .error f => some f
    | .ok .directory => some .denied
    | .ok (.program _) => none
    | .ok (.file content executable) =>
      if !executable then some .denied
      else (interpreter? content).bind fun name => runFault? t dir fuel ⟨name⟩

/-- How many files a program may be led through. -/
def maxInterpreters : Nat := 6

/-- Why a program cannot be started in a directory. -/
def startFault? (t : FileTree) (dir program : Path) (args : List String) : Option StartFault :=
  if dir.bytes.contains 0 ∨ program.bytes.contains 0 ∨ args.any fun a => a.toList.contains '\x00' then
    some .nul
  else
    match t.find dir with
    | .error f => some (.file f)
    | .ok .directory => (runFault? t dir maxInterpreters program).map .file
    | .ok _ => some (.file .notDirectory)

end Machine

end WorkflowLint

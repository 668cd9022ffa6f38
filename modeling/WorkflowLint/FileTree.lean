import WorkflowLint.Path
import WorkflowLint.Table
/-!
# File trees

A file tree maps places to files and directories. A place is the list of names that lead to it
from the root. Paths are walked name by name: every step needs a directory to start from, and a
double dot leads back to the directory above.
-/

namespace WorkflowLint

/-- Why the file system refused. -/
inductive FileFault where
  | notFound
  | denied
  | notDirectory
  | isDirectory
  | tooLong
  | notExecutable
  | notText
  | nul
  deriving DecidableEq, Inhabited

namespace FileFault

/-- The number the system gives a fault, if it is the system that reports it. -/
def number? : FileFault → Option Nat
  | .notFound => some 2
  | .denied => some 13
  | .notDirectory => some 20
  | .isDirectory => some 21
  | .tooLong => some 36
  | .notExecutable => some 8
  | .notText => none
  | .nul => none

/-- What a fault is called. -/
def name : FileFault → String
  | .notFound => "No such file or directory"
  | .denied => "Permission denied"
  | .notDirectory => "Not a directory"
  | .isDirectory => "Is a directory"
  | .tooLong => "File name too long"
  | .notExecutable => "Exec format error"
  | .notText => "stream did not contain valid UTF-8"
  | .nul => "file name contained an unexpected NUL byte"

def text (f : FileFault) : String :=
  match f.number? with
  | some n => s!"{f.name} (os error {n})"
  | none => f.name

end FileFault

inductive FileEntry where
  | directory
  | file (content : List UInt8) (executable : Bool)
  /-- A program of the system, known by its name. -/
  | program (name : String)
  deriving DecidableEq, Inhabited

/-- The names that lead from the root to a place. -/
abbrev FilePlace := List (List UInt8)

/-- A file tree. The root is a directory without an entry. -/
structure FileTree where
  entries : Table FilePlace FileEntry := {}
  deriving Inhabited

namespace FileTree

/-- The longest name of a file. -/
def maxName : Nat := 255

/-- What stands at a place. -/
def at? (t : FileTree) : FilePlace → Option FileEntry
  | [] => some .directory
  | place => t.entries.get? place

/-- One step from a place, which has to be a directory. -/
def step (t : FileTree) (place : FilePlace) : Component → Except FileFault FilePlace
  | .root => .ok []
  | .current => .ok place
  | .parent => if t.at? place = some .directory then .ok place.dropLast else .error .notDirectory
  | .normal name =>
    if t.at? place ≠ some .directory then .error .notDirectory
    else if maxName < name.length then .error .tooLong
    else if (t.at? (place ++ [name])).isNone then .error .notFound
    else .ok (place ++ [name])

/-- Whether a path says that it names a directory. -/
def namesDirectory (p : Path) : Bool :=
  match p.segments.reverse with
  | last :: _ :: _ => last = [] || last = Path.dot
  | _ => false

/-- The place an absolute path leads to. -/
def locate (t : FileTree) (p : Path) : Except FileFault FilePlace :=
  if p.bytes.contains 0 then .error .nul
  else do
    let place ← p.components.foldlM t.step []
    if namesDirectory p ∧ t.at? place ≠ some .directory then .error .notDirectory
    else .ok place

def find (t : FileTree) (p : Path) : Except FileFault FileEntry := do
  match t.at? (← t.locate p) with
  | some e => .ok e
  | none => .error .notFound

/-- Whether an absolute path leads anywhere. -/
def «exists» (t : FileTree) (p : Path) : Bool :=
  match t.find p with
  | .ok _ => true
  | .error _ => false

/-- The entry of a file, if an absolute path leads to one. -/
def file? (t : FileTree) (p : Path) : Option FileEntry :=
  match t.find p with
  | .ok .directory => none
  | .ok e => some e
  | .error _ => none

def isDirectory (t : FileTree) (p : Path) : Bool :=
  match t.find p with
  | .ok .directory => true
  | _ => false

def read (t : FileTree) (p : Path) : Except FileFault (List UInt8) := do
  match ← t.find p with
  | .directory => .error .isDirectory
  | .file content _ => .ok content
  | .program _ => .ok []

def readText (t : FileTree) (p : Path) : Except FileFault String := do
  match Text.Utf8.toString? (← t.read p) with
  | .ok s => .ok s
  | .error _ => .error .notText

def placeOf (p : Path) : FilePlace :=
  p.components.filterMap fun
    | .normal name => some name
    | _ => none

/-- The tree with a directory at a place, and above it. -/
def addDirectory (t : FileTree) (place : FilePlace) : FileTree :=
  ⟨(List.range place.length).foldl (fun es n => es.insert (place.take (n + 1)) .directory)
    t.entries⟩

/-- The tree with an entry at a place, and directories above it. -/
def add (t : FileTree) (place : FilePlace) (e : FileEntry) : FileTree :=
  ⟨(t.addDirectory place.dropLast).entries.insert place e⟩

/-- The place a file is written to: a place there is, or a new name in a directory. -/
def writable (t : FileTree) (p : Path) : Except FileFault FilePlace :=
  match t.locate p with
  | .ok place => if t.at? place = some .directory then .error .isDirectory else .ok place
  | .error .notFound => do
    match p.parent?, p.fileName? with
    | some above, some name =>
      let place ← t.locate above
      if t.at? place = some .directory then .ok (place ++ [name]) else .error .notDirectory
    | _, _ => .error .notFound
  | .error f => .error f

/-- The tree with a file's content put in place of any other. -/
def write (t : FileTree) (p : Path) (content : List UInt8) : Except FileFault FileTree := do
  let place ← t.writable p
  let executable := match t.at? place with
    | some (.file _ x) => x
    | _ => false
  return ⟨t.entries.insert place (.file content executable)⟩

end FileTree

end WorkflowLint

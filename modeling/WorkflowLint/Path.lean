import WorkflowLint.Text.Utf8
/-!
# Paths

A path is a byte string that slashes cut into segments. Its components leave out empty segments
and single dots, but for a dot at the front of a relative path. Nothing is resolved against a file
system here: a double dot is a component like any other.
-/

namespace WorkflowLint

/-- A path as it is written. -/
structure Path where
  bytes : List UInt8
  deriving DecidableEq, Inhabited

/-- A part of a path that means something. -/
inductive Component where
  | root
  | current
  | parent
  | normal (name : List UInt8)
  deriving DecidableEq, Inhabited

namespace Path

/-- The byte between segments. -/
def slash : UInt8 := 0x2F

/-- The segment that stays where it is. -/
def dot : List UInt8 := [0x2E]

/-- The segment that goes up. -/
def dotDot : List UInt8 := [0x2E, 0x2E]

def ofString (s : String) : Path := ⟨Text.Utf8.ofString s⟩

/-- The path as a text, malformed bytes replaced. -/
def display (p : Path) : String := Text.Utf8.toStringLossy p.bytes

def cut (bs : List UInt8) : List (List UInt8) :=
  let (done, open_) := bs.foldr
    (fun b (acc : List (List UInt8) × List UInt8) =>
      if b = slash then (acc.2 :: acc.1, []) else (acc.1, b :: acc.2))
    ([], [])
  open_ :: done

def glue (segments : List (List UInt8)) : List UInt8 :=
  [slash].intercalate segments

/-- The segments as they are written. An absolute path begins with an empty one. -/
def segments (p : Path) : List (List UInt8) := cut p.bytes

def isAbsolute (p : Path) : Bool := p.bytes.head? = some slash

/-- The component of a segment that is not the first of a relative path. -/
def innerComponent? (segment : List UInt8) : Option Component :=
  if segment = [] ∨ segment = dot then none
  else if segment = dotDot then some .parent
  else some (.normal segment)

def components (p : Path) : List Component :=
  match p.segments with
  | [] => []
  | first :: rest =>
    if p.isAbsolute then .root :: rest.filterMap innerComponent?
    else if first = dot then .current :: rest.filterMap innerComponent?
    else (first :: rest).filterMap innerComponent?

/-- The bytes a component is written with, after a slash when it is not the first. -/
def Component.segment : Component → List UInt8
  | .root => []
  | .current => dot
  | .parent => dotDot
  | .normal name => name

def same (p q : Path) : Bool := p.components = q.components

def startsWith (p root : Path) : Bool := root.components.isPrefixOf p.components

/-- The components of `p` after those of `root`. -/
def below (p root : Path) : List Component := p.components.drop root.components.length

/-- Another path seen from this one: an absolute path stands for itself. -/
def join (p q : Path) : Path :=
  if q.isAbsolute ∨ p.bytes = [] then q
  else if p.bytes.getLast? = some slash then ⟨p.bytes ++ q.bytes⟩
  else ⟨p.bytes ++ slash :: q.bytes⟩

/-- The path without segments at its end that mean nothing, given as its segments back to front. -/
def trimEnd : List (List UInt8) → List (List UInt8)
  | [] => []
  | [first] => [first]
  | s :: rest => if s = [] ∨ s = dot then trimEnd rest else s :: rest

/-- The path without its last component; none when nothing is left to take away. -/
def parent? (p : Path) : Option Path :=
  match p.components.getLast? with
  | none => none
  | some .root => none
  | some _ =>
    match trimEnd p.segments.reverse with
    | [] => none
    | _ :: rest =>
      let left := (trimEnd rest).reverse
      if left = [[]] then some ⟨[slash]⟩ else some ⟨glue left⟩

def fileName? (p : Path) : Option (List UInt8) :=
  match p.components.getLast? with
  | some (.normal name) => some name
  | _ => none

/-- The names among components, with slashes between. -/
def slashed (cs : List Component) : String :=
  "/".intercalate (cs.filterMap fun
    | .normal name => some (Text.Utf8.toStringLossy name)
    | _ => none)

def push (p : Path) : Component → Path
  | .root => ⟨[slash]⟩
  | c => p.join ⟨Component.segment c⟩

/-- The path seen from `cwd`, with the components of both. Two slashes at the front stay two, and
a slash at the end stays. -/
def absolute (cwd p : Path) : Path :=
  let cs := match p.components with
    | .current :: rest => rest
    | cs => cs
  let two := p.bytes.take 2 = [slash, slash] ∧ p.bytes[2]? ≠ some slash
  let whole :=
    if p.isAbsolute then
      if two then (cs.drop 1).foldl push ⟨[slash, slash]⟩ else cs.foldl push ⟨[]⟩
    else cs.foldl push cwd
  if p.bytes.getLast? = some slash ∧ whole.bytes.getLast? ≠ some slash then
    ⟨whole.bytes ++ [slash]⟩
  else whole

end Path

end WorkflowLint

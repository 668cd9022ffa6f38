import WorkflowLint.Url.Host
import WorkflowLint.Path
/-!
# URLs

A URL in its normal form: scheme in lower case, host and path encoded and without dot segments.
Two URLs are equal iff their texts are, so a URL is a key for what is known of a document.
-/

namespace WorkflowLint

namespace Url

/-- What stands between two slashes and the path. -/
structure Authority where
  user : String := ""
  password : Option String := none
  host : Option Host := none
  port : Option Nat := none
  deriving DecidableEq, Inhabited

/-- What stands after the authority: segments, or any text where there is no slash. -/
inductive Tail where
  | opaqueText (text : String)
  | segments (ss : List String)
  deriving DecidableEq, Inhabited

end Url

structure Url where
  scheme : String
  authority : Option Url.Authority
  tail : Url.Tail
  query : Option String := none
  fragment : Option String := none
  deriving DecidableEq, Inhabited

namespace Url

def Authority.text (a : Authority) : String :=
  let login := match a.password with
    | some p => a.user ++ ":" ++ p ++ "@"
    | none => if a.user = "" then "" else a.user ++ "@"
  let port := match a.port with
    | some n => s!":{n}"
    | none => ""
  "//" ++ login ++ (a.host.map Host.text).getD "" ++ port

def Tail.text : Tail → String
  | .opaqueText text => text
  | .segments ss => String.join (ss.map ("/" ++ ·))

/-- The text of a URL. Without authority, a path that begins with two slashes takes a dot segment
before it. -/
def text (u : Url) : String :=
  let front := match u.authority, u.tail with
    | some a, _ => a.text
    | none, .segments ("" :: _ :: _) => "/."
    | none, _ => ""
  u.scheme ++ ":" ++ front ++ u.tail.text ++
    ((u.query.map ("?" ++ ·)).getD "") ++ ((u.fragment.map ("#" ++ ·)).getD "")

def fileScheme : String := "file"

/-- Whether the byte string ends like a bare drive letter, which takes a slash. -/
def endsInDrive (bs : List UInt8) : Bool :=
  match bs.reverse with
  | c :: d :: _ :: _ =>
    (c = 0x3A || c = 0x7C) && ((0x41 ≤ d && d ≤ 0x5A) || (0x61 ≤ d && d ≤ 0x7A))
  | _ => false

/-- The path of the file a URL names: its decoded segments. A URL of another host names none. -/
def toPath? (u : Url) : Option Path :=
  match u.tail with
  | .opaqueText _ => none
  | .segments ss =>
    let isLocal := match u.authority with
      | none => true
      | some a => a.host = none ∨ a.host = some (.domain "localhost")
    if !isLocal ∨ ss = [] then none
    else
      let bs := ss.flatMap fun s => Path.slash :: decode s
      some ⟨if endsInDrive bs then bs ++ [Path.slash] else bs⟩

/-- The URL of an absolute path: its components, encoded. -/
def ofPath? (p : Path) : Option Url :=
  if !p.isAbsolute then none
  else
    let names := (p.components.drop 1).map fun c =>
      encodeBytes segmentSet (Path.Component.segment c)
    some {
      scheme := fileScheme
      authority := some {}
      tail := .segments (if names.isEmpty then [""] else names) }

/-- What is said of a path without URL. -/
def noUrlText (p : Path) : String :=
  s!"cannot convert path to file URI: {p.display}"

end Url

end WorkflowLint

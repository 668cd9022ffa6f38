import WorkflowLint.Server.Message
/-!
# What the editor is told

Events of the coordinator become frames for the editor, in their order; that a run settled is not
told. Notices that offer the log become requests, numbered so that no two share an identifier.
-/

namespace WorkflowLint

namespace Server

/-- A place on a line. -/
def position (line column : Nat) : Json :=
  Json.object [("line", Json.nat line), ("character", Json.nat column)]

def diagnosticFrame (d : Diagnostic) : Json :=
  Json.object [
    ("range", Json.object [
      ("start", position d.line d.startCol),
      ("end", position d.line d.endCol)]),
    ("severity", Json.nat d.severity.rank),
    ("source", .string d.source),
    ("code", .string d.code),
    ("message", .string d.message)]

/-- The parameters that replace the diagnostics of a document. -/
def publishParams (url : Url) (version : Option Int) (ds : List Diagnostic) : Json :=
  Json.object ([("uri", .string url.text), ("diagnostics", .array (ds.map diagnosticFrame))] ++
    version.toList.map fun n => ("version", Json.int n))

def statusParams (i : Indicator) : Json :=
  Json.object ([("state", .string i.name), ("label", .string i.label)] ++
    i.count?.toList.map fun n => ("count", Json.nat n))

/-- The title of the action that shows the log. -/
def showLogTitle : String := "Show Output"

/-- What the identifiers of notices begin with. -/
def noticeLead : String := "flowlint/showMessage/"

def noticeParams (n : Notice) : Json :=
  let kind := match n.urgency with
    | .error => 1
    | .warning => 2
  Json.object ([("type", Json.nat kind), ("message", .string n.message)] ++
    if n.offersLog then
      [("actions", .array [Json.object [("title", .string showLogTitle)]])]
    else [])

/-- Whether a reply chooses to see the log after a notice. -/
def choosesLog (id result : Json) : Bool :=
  (id.asString?.any fun s => noticeLead.toList.isPrefixOf s.toList) &&
    (result.get? "title").bind Json.asString? = some showLogTitle

/-- The frame of an event, if it has one. `number` is the number of notices before it. -/
def frameOf? (number : Nat) : Event → Option Json
  | .published url version ds =>
    some (notification "textDocument/publishDiagnostics" (some (publishParams url version ds)))
  | .status i => some (notification "flowlint/status" (some (statusParams i)))
  | .notice n =>
    if n.offersLog then
      some (Json.object [version, ("id", .string (noticeLead ++ toString (number + 1))),
        ("method", .string "window/showMessageRequest"), ("params", noticeParams n)])
    else some (notification "window/showMessage" (some (noticeParams n)))
  | .settled _ => none

/-- The number of notices after an event. -/
def countNotice (number : Nat) : Event → Nat
  | .notice n => if n.offersLog then number + 1 else number
  | _ => number

/-- The frames of events, and the number of notices after them. -/
def relay (number : Nat) : List Event → List Json × Nat
  | [] => ([], number)
  | e :: es =>
    let (frames, last) := relay (countNotice number e) es
    ((frameOf? number e).toList ++ frames, last)

end Server

end WorkflowLint

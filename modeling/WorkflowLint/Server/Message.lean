import WorkflowLint.Coordinator.State
import WorkflowLint.Json.Shape
import WorkflowLint.Url.Parser
/-!
# Messages between an editor and the server

A frame is a request when it has an identifier and a method, a notification when it has a method
alone, and a reply when it has an identifier and a result or an error. Requests and notifications
have parameters, whose shapes are read here.
-/

namespace WorkflowLint

namespace Server

/-! ## Frames from the editor -/

/-- A message of the editor. -/
inductive Incoming where
  | request (id : Json) (method : String) (params : Json)
  | notification (method : String) (params : Json)
  /-- A reply to a request of the server; the result of an error is null. -/
  | reply (id result : Json)

def identifier? (frame : Json) : Option Json :=
  (frame.get? "id").filter fun v => !v.isNull

/-- The message of a frame; other frames mean nothing. -/
def Incoming.ofFrame? (frame : Json) : Option Incoming :=
  let params := (frame.get? "params").getD .null
  match identifier? frame, (frame.get? "method").bind Json.asString? with
  | some id, some method => some (.request id method params)
  | none, some method => some (.notification method params)
  | some id, none =>
    if (frame.get? "result").isSome || (frame.get? "error").isSome then
      some (.reply id ((frame.get? "result").getD .null))
    else none
  | none, none => none

/-! ## Frames to the editor -/

def version : String × Json := ("jsonrpc", .string "2.0")

/-- Why a request is refused. -/
inductive Refusal where
  | shuttingDown
  | initialized
  | notInitialized
  | badParams (m : Json.Mismatch)
  | unknownMethod (method : String)
  deriving DecidableEq

def Refusal.code : Refusal → Int
  | .shuttingDown => -32600
  | .initialized => -32600
  | .notInitialized => -32002
  | .badParams _ => -32602
  | .unknownMethod _ => -32601

def Refusal.text : Refusal → String
  | .shuttingDown => "server is shutting down"
  | .initialized => "server already initialized"
  | .notInitialized => "server not initialized"
  | .badParams m => m.text
  | .unknownMethod method => s!"Method not found: {method}"

def response (id : Json) : Except Refusal Json → Json
  | .ok result => Json.object [version, ("id", id), ("result", result)]
  | .error r =>
    Json.object [version, ("id", id),
      ("error", Json.object [("code", Json.int r.code), ("message", .string r.text)])]

def notification (method : String) (params : Option Json) : Json :=
  Json.object ([version, ("method", .string method)] ++ params.toList.map ("params", ·))

/-- What the server can do. -/
def abilities : Json :=
  Json.object [
    ("capabilities", Json.object [
      ("textDocumentSync", Json.object [
        ("openClose", .bool true),
        ("change", Json.nat 1),
        ("save", Json.object [("includeText", .bool true)])]),
      ("workspace", Json.object [
        ("workspaceFolders", Json.object [
          ("supported", .bool true),
          ("changeNotifications", .bool true)])])]),
    ("serverInfo", Json.object [("name", .string "flowlint"), ("version", .string "0.0.0")])]

/-! ## Parameters -/

open Json (Reader Record)

structure InitializeParams where
  rootUri : Option String := none
  folders : Option (List String) := none
  /-- Whether the editor trusts the workspace. -/
  trusted : Bool := false
  settings : Option Json := none

/-- A record with one text. -/
def textRecord (title name : String) : Record String where
  title
  fields := [{ name, required := true, set := fun v _ => Reader.string v }]

/-- A folder of the workspace, by its URL. -/
def folder : Reader String := (textRecord "WorkspaceFolder" "uri").read ""

/-- The options in the parameters of `initialize`. -/
def optionsRecord : Record InitializeParams where
  title := "InitializationOptions"
  fields := [
    { name := "trusted", set := fun v p => return { p with trusted := ← Reader.bool v } },
    { name := "settings"
      set := fun v p => return { p with settings := ← Reader.optional Reader.any v } }]

def initializeRecord : Record InitializeParams where
  title := "InitializeParams"
  fields := [
    { name := "rootUri"
      set := fun v p => return { p with rootUri := ← Reader.optional Reader.string v } },
    { name := "workspaceFolders"
      set := fun v p => return { p with folders := ← Reader.optional (Reader.list folder) v } },
    { name := "initializationOptions"
      set := fun v p => if v.isNull then .ok p else optionsRecord.read p v }]

def InitializeParams.read : Reader InitializeParams := fun v =>
  if v.isNull then .ok {} else initializeRecord.read {} v

def pathOfUrl? (s : String) : Option Path :=
  match Url.parse s with
  | .ok u => u.toPath?
  | .error _ => none

/-- The roots: the folders, or the root when there are none. -/
def InitializeParams.workspace (p : InitializeParams) : Workspace :=
  match p.folders with
  | some (f :: fs) => (f :: fs).filterMap pathOfUrl?
  | _ => (p.rootUri.bind pathOfUrl?).toList

structure DocumentParams where
  uri : String := ""
  language : String := ""
  version : Int := 0
  text : Option String := none
  /-- The texts of a list of changes. -/
  changes : List String := []

def uriField : Json.Field DocumentParams where
  name := "uri"
  required := true
  set := fun v p => return { p with uri := ← Reader.string v }

def versionField : Json.Field DocumentParams where
  name := "version"
  required := true
  set := fun v p => return { p with version := ← Reader.int32 v }

def documentField (title : String) (fields : List (Json.Field DocumentParams)) :
    Json.Field DocumentParams where
  name := "textDocument"
  required := true
  set := fun v p => Record.read { title, fields } p v

def openRecord : Record DocumentParams where
  title := "DidOpenParams"
  fields := [
    documentField "TextDocumentItem" [
      uriField,
      { name := "languageId", required := true
        set := fun v p => return { p with language := ← Reader.string v } },
      versionField,
      { name := "text", required := true
        set := fun v p => return { p with text := some (← Reader.string v) } }]]

def changeRecord : Record DocumentParams where
  title := "DidChangeParams"
  fields := [
    documentField "VersionedDocument" [uriField, versionField],
    { name := "contentChanges", required := true
      set := fun v p => do
        let change := (textRecord "ContentChange" "text").read ""
        return { p with changes := ← Reader.list change v } }]

def saveRecord : Record DocumentParams where
  title := "DidSaveParams"
  fields := [
    documentField "DocumentId" [uriField],
    { name := "text", listed := true
      set := fun v p => return { p with text := ← Reader.optional Reader.string v } }]

def closeRecord : Record DocumentParams where
  title := "DidCloseParams"
  fields := [documentField "DocumentId" [uriField]]

def settingsRecord : Record Json where
  title := "DidChangeConfigurationParams"
  fields := [{ name := "settings", set := fun v _ => .ok v }]

/-- Folders that a workspace lost and got. -/
structure FolderChange where
  added : List String := []
  removed : List String := []

def foldersRecord : Record FolderChange where
  title := "DidChangeWorkspaceFoldersParams"
  fields := [
    { name := "event", required := true
      set := fun v p => Record.read {
        title := "WorkspaceFoldersChange"
        fields := [
          { name := "added"
            set := fun v p => return { p with added := ← Reader.list folder v } },
          { name := "removed"
            set := fun v p => return { p with removed := ← Reader.list folder v } }] } p v }]

/-- The parameters of a change of the active document: its address, if there is one. -/
def activeRecord : Record (Option String) where
  title := "ActiveDocumentParams"
  fields := [{ name := "uri", set := fun v _ => Reader.optional Reader.string v }]

end Server

end WorkflowLint

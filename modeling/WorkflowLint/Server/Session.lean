import WorkflowLint.Server.Relay
import WorkflowLint.Settings.File
import WorkflowLint.Settings.Resolution
/-!
# Sessions with an editor

A server waits for `initialize`, then has a session until `shutdown`, and then only waits for
`exit`. `Server.handle` takes the server and a frame to the server after it and the actions it
takes, in their order. Handlers only translate: what to check, and when, is the coordinator's
business.
-/

namespace WorkflowLint

/-- What surrounds a server. -/
structure Surroundings where
  files : FileTree := {}
  env : Environment := []
  /-- The configuration file of the user. -/
  userFile : Option Path := none
  deriving Inhabited

namespace Server

/-- What a session knows. -/
structure Session where
  sources : Sources
  trusted : Bool
  workspace : Workspace
  deriving DecidableEq, Inhabited

inductive Exit where
  /-- After `shutdown`. -/
  | clean
  | abrupt
  deriving DecidableEq, Inhabited

def Exit.code : Exit → Nat
  | .clean => 0
  | .abrupt => 1

inductive Action where
  /-- Start a coordinator. -/
  | launch (settings : Settings) (workspace : Workspace)
  /-- Give the coordinator a command. -/
  | command (c : Command)
  /-- Shut the coordinator down, and wait until all it told is on its way to the editor. -/
  | stop
  /-- Send a frame to the editor. -/
  | send (frame : Json)

end Server

structure Server where
  session : Option Server.Session := none
  /-- Whether the editor asked for `shutdown`. -/
  isShutDown : Bool := false
  deriving DecidableEq, Inhabited

namespace Server

/-! ## Settings -/

/-- The layer of the first root's configuration file. -/
def workspaceLayer? (s : Surroundings) (roots : Workspace) : Option Layer := do
  let root ← roots.head?
  Layer.load? s.files (Layer.workspaceFile root)

/-- The layer of settings an editor sends; settings it cannot send count as none. -/
def clientLayer? (v : Json) : Option Layer := (Layer.ofClient v).toOption

def Session.settings (s : Surroundings) (x : Session) : Settings :=
  (x.sources.resolve s.env x.trusted).settings

/-- The action that gives the coordinator the settings of a session. -/
def Session.configure (s : Surroundings) (x : Session) : Action :=
  .command (.configured (x.settings s))

/-- The session that `initialize` begins. -/
def Session.begin (s : Surroundings) (p : InitializeParams) : Session :=
  let workspace := p.workspace
  { sources :=
      { userFile := s.userFile.bind (Layer.load? s.files)
        client := p.settings.bind clientLayer?
        workspace := workspaceLayer? s workspace }
    trusted := p.trusted
    workspace }

/-! ## Requests -/

/-- Answer a request. The actions are those before the response. -/
def answer (s : Surroundings) (server : Server) (method : String) (params : Json) :
    Server × List Action × Except Refusal Json :=
  if server.isShutDown then (server, [], .error .shuttingDown)
  else
    match server.session, method with
    | some _, "initialize" => (server, [], .error .initialized)
    | none, "initialize" =>
      match InitializeParams.read params with
      | .error m => (server, [], .error (.badParams m))
      | .ok p =>
        let x := Session.begin s p
        ({ server with session := some x }, [.launch (x.settings s) x.workspace], .ok abilities)
    | none, _ => (server, [], .error .notInitialized)
    | some _, "shutdown" => ({ session := none, isShutDown := true }, [.stop], .ok .null)
    | some _, _ => (server, [], .error (.unknownMethod method))

/-! ## Notifications -/

/-- The roots after folders were removed and added. -/
def changeRoots (roots : Workspace) (c : FolderChange) : Workspace :=
  let removed := c.removed.filterMap pathOfUrl?
  let kept := roots.filter fun root => !removed.any root.same
  (c.added.filterMap pathOfUrl?).foldl
    (fun roots p => if roots.any p.same then roots else roots ++ [p]) kept

/-- What a session does about a notification; none when it does not accept it. -/
def Session.notice? (s : Surroundings) (x : Session) (method : String) (params : Json) :
    Option (Session × List Action) :=
  match method with
  | "textDocument/didOpen" => do
    let p ← (openRecord.read {} params).toOption
    let url ← (Url.parse p.uri).toOption
    let d : Document :=
      { url, language := p.language, version := p.version, text := p.text.getD "" }
    return (x, [.command (.opened d)])
  | "textDocument/didChange" => do
    let p ← (changeRecord.read {} params).toOption
    let url ← (Url.parse p.uri).toOption
    let text ← p.changes.getLast?
    return (x, [.command (.changed url p.version text)])
  | "textDocument/didSave" => do
    let p ← (saveRecord.read {} params).toOption
    let url ← (Url.parse p.uri).toOption
    return (x, [.command (.saved url p.text)])
  | "textDocument/didClose" => do
    let p ← (closeRecord.read {} params).toOption
    let url ← (Url.parse p.uri).toOption
    return (x, [.command (.closed url)])
  | "workspace/didChangeConfiguration" => do
    let settings ← (settingsRecord.read .null params).toOption
    let x := { x with sources := { x.sources with client := clientLayer? settings } }
    return (x, [x.configure s])
  | "workspace/didChangeWorkspaceFolders" => do
    let c ← (foldersRecord.read {} params).toOption
    let workspace := changeRoots x.workspace c
    let layer := workspaceLayer? s workspace
    let y := { x with workspace, sources := { x.sources with workspace := layer } }
    return (y, .command (.rooted workspace) ::
      (if layer = x.sources.workspace then [] else [y.configure s]))
  | "flowlint/didChangeActiveDocument" => do
    match ← (activeRecord.read none params).toOption with
    | none => return (x, [.command (.focused none)])
    | some uri => return (x, [.command (.focused (some (← (Url.parse uri).toOption)))])
  | _ => none

/-- The server after a notification, and its actions. -/
def notify (s : Surroundings) (server : Server) (method : String) (params : Json) :
    Server × List Action :=
  match server.session.bind fun x => x.notice? s method params with
  | some (x, actions) => ({ server with session := some x }, actions)
  | none => (server, [])

/-! ## Frames -/

/-- How the server ends at `exit`. -/
def exit (server : Server) : Exit := if server.isShutDown then .clean else .abrupt

/-- React to a frame. -/
def handle (s : Surroundings) (server : Server) (frame : Json) :
    Server × List Action × Option Exit :=
  match Incoming.ofFrame? frame with
  | none => (server, [], none)
  | some (.request id method params) =>
    let (server, actions, result) := server.answer s method params
    (server, actions ++ [.send (response id result)], none)
  | some (.notification "exit" _) => (server, [], some server.exit)
  | some (.notification method params) =>
    let (server, actions) := server.notify s method params
    (server, actions, none)
  | some (.reply id result) =>
    (server, if choosesLog id result then [.send (notification "flowlint/showOutput" none)] else [],
      none)

end Server

end WorkflowLint

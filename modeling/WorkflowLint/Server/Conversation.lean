import WorkflowLint.Rehearsal
import WorkflowLint.Server.Frame
import WorkflowLint.Server.Session
/-!
# Conversations

A conversation plays a server over a stream of bytes, with a coordinator in rehearsal. The server
reads all frames that have come in before the others get to run, with two exceptions: a server that
stops the coordinator waits until it has stopped, and one that has filled the outbox waits until
there is room. What the coordinator told by then is ahead of what the server sends next.
-/

namespace WorkflowLint

namespace Server

/-- Why serving failed, from the outermost cause to the innermost. -/
def faultChain (f : Frame.Fault) : List String :=
  let inner := match f with
    | .notText m => [Frame.malformedText m]
    | .cutBody => ["early eof"]
    | _ => []
  ["reading from the client", f.text] ++ inner

/-- How many frames wait to be written at most. -/
def outboxRoom : Nat := 64

/-- A server with all around it. -/
structure Conversation where
  surroundings : Surroundings := {}
  script : List RunEnd := []
  server : Server := {}
  /-- The bytes that came in and were not read. -/
  unread : List UInt8 := []
  rehearsal : Option Rehearsal := none
  /-- The number of notices sent. -/
  notices : Nat := 0
  /-- The frames sent in this step, in order. -/
  frames : List Json := []
  /-- The number of frames the server sent since it last waited. -/
  queued : Nat := 0
  /-- How serving ended, if it has. -/
  ended : Option (Except Frame.Fault Exit) := none
  deriving Inhabited

namespace Conversation

/-- Wait until what was sent is written, and with it what the coordinator told. -/
def drain (c : Conversation) : Conversation :=
  match c.rehearsal with
  | none => { c with queued := 0 }
  | some r =>
    let (frames, notices) := relay c.notices r.events.reverse
    { c with
      frames := c.frames ++ frames
      notices
      rehearsal := some { r with events := [] }
      queued := 0 }

/-- Send a frame, once there is room for it. -/
def send (c : Conversation) (frame : Json) : Conversation :=
  let c := if c.queued < outboxRoom then c else c.drain
  { c with frames := c.frames ++ [frame], queued := c.queued + 1 }

/-- Let the rehearsal go on. -/
def play (c : Conversation) (f : Rehearsal → Rehearsal) : Conversation :=
  { c with rehearsal := c.rehearsal.map f }

def perform (c : Conversation) : Action → Conversation
  | .launch settings workspace =>
    { c with rehearsal := some (Rehearsal.launch c.script settings workspace []) }
  | .command command => c.play (·.hear (.command command))
  | .stop => (c.play (·.hear (.command .shutdown))).drain
  | .send frame => c.send frame

def finish (c : Conversation) (how : Except Frame.Fault Exit) : Conversation :=
  let c := if c.server.session.isSome then c.perform .stop else c
  { c with ended := some how }

/-- React to the body of a frame. -/
def receive (c : Conversation) (body : Except Json.SyntaxError Json) : Conversation :=
  match c.ended, body with
  | none, .ok frame =>
    let (server, actions, exit) := c.server.handle c.surroundings frame
    let c := actions.foldl perform { c with server }
    match exit with
    | some how => c.finish (.ok how)
    | none => c
  | _, _ => c

def read (c : Conversation) (closed : Bool) : Conversation :=
  if c.ended.isSome then c
  else
    let (bodies, stop) := Frame.readAll closed c.unread
    let c := bodies.foldl receive c
    if c.ended.isSome then c
    else
      match stop with
      | .waiting rest => { c with unread := rest }
      | .ended => c.finish (.ok .abrupt)
      | .broken f => c.finish (.error f)

/-- Let the coordinator come to rest, and send what it told. -/
def settle (c : Conversation) : Conversation := (c.play Rehearsal.settle).drain

def clearStep (c : Conversation) : Conversation :=
  { c with frames := [], rehearsal := c.rehearsal.map Rehearsal.clearStep }

def feed (c : Conversation) (bytes : List UInt8) : Conversation :=
  ({ c with unread := c.unread ++ bytes }.read false).settle

def close (c : Conversation) : Conversation := (c.read true).settle

def advance (c : Conversation) (delay : Nat) : Conversation := (c.play (·.advance delay)).drain

/-- A call of the tool is answered. -/
def answer (c : Conversation) (number : Nat) (result : RunEnd) : Conversation :=
  (c.play (·.answer number result)).drain

end Conversation

end Server

end WorkflowLint

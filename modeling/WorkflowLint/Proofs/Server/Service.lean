import WorkflowLint.Proofs.Coordinator.Rehearsed
import WorkflowLint.Proofs.Server.Lifecycle
import WorkflowLint.Server.Conversation
/-!
# Serving as it interleaves

While a server serves, four tasks take turns in any order. The server task reads a frame only when
it is done with the one before; what `Server.handle` gives it to do it does one thing at a time. The
coordinator obeys commands, hears of timers and runs, and tells events one by one. The carrier makes
frames of them, and the writer writes what the server task and the carrier put in the outbox. The
queues between them keep their order, and those of commands and frames have room for so many.

`Serving s x` says that a server in surroundings `s` can come to `x`. The frames that were written
or are on their way to it are its `path`; nothing on it is ever overtaken.
-/

namespace WorkflowLint

namespace Server

/-- How many commands wait for the coordinator at most. -/
def commandRoom : Nat := 256

/-- One thing the server task has to do. -/
inductive Errand where
  | launch (start : Launch)
  | command (c : Command)
  /-- Wait for the coordinator to end, and then for the carrier. -/
  | join
  | send (frame : Json)
  /-- Have the writer end. -/
  | dismiss

/-- What an action is for the server task. -/
def Action.errands : Action → List Errand
  | .launch settings workspace => [.launch { settings, workspace }]
  | .command c => [.command c]
  | .stop => [.command .shutdown, .join]
  | .send frame => [.send frame]

/-- What is left to do once the server has stopped reading. -/
def farewell (server : Server) : List Errand :=
  (if server.session.isSome then Action.stop.errands else []) ++ [.dismiss]

def Errand.frame? : Errand → Option Json
  | .send frame => some frame
  | _ => none

/-- The coordinator: not launched, launched, at work with what it has still to tell, or gone. -/
inductive Tenure where
  | vacant
  | called (start : Launch)
  | held (c : Coordinator) (h : History) (untold : List Event)
  | over (h : History)

def Tenure.history : Tenure → History
  | .held _ h _ => h
  | .over h => h
  | _ => []

def Tenure.untold : Tenure → List Event
  | .held _ _ es => es
  | _ => []

def Tenure.hearing (c : Coordinator) (h : History) (m : Message) : Tenure :=
  .held (c.handle m).1 (h ++ .heard m :: (c.handle m).2.map .did)
    (History.events ((c.handle m).2.map .did))

/-- The carrier, with the number of requests it made and the frame it has in hand. -/
structure Carrier where
  number : Nat := 0
  hand : Option Json := none
  ended : Bool := false

/-- What waits for the writer. -/
inductive Outgoing where
  | frame (frame : Json)
  | dismissal

def Outgoing.frame? : Outgoing → Option Json
  | .frame f => some f
  | .dismissal => none

/-- The writer, with the frame it has in hand. -/
structure Writer where
  hand : Option Json := none
  ended : Bool := false

/-- A server with its tasks. -/
structure Service where
  server : Server := {}
  /-- The frames read. -/
  heard : List Json := []
  errands : List Errand := []
  /-- How serving ends, once it does. -/
  ending : Option (Except Frame.Fault Exit) := none
  hasReturned : Bool := false
  commands : List Command := []
  tenure : Tenure := .vacant
  events : List Event := []
  carrier : Carrier := {}
  outbox : List Outgoing := []
  writer : Writer := {}
  written : List Json := []

namespace Service

def read (s : Surroundings) (x : Service) (frame : Json) : Service :=
  let (server, actions, exit) := x.server.handle s frame
  { x with
    server
    heard := x.heard ++ [frame]
    errands := actions.flatMap Action.errands ++ if exit.isSome then farewell server else []
    ending := exit.map .ok }

end Service

/-- What brings a step about: the world outside, or the tasks alone. -/
inductive Origin where
  | outside
  | inside

/-- What one of the tasks can do next. -/
inductive Step (s : Surroundings) : Origin → Service → Service → Prop
  | read {x : Service} (frame : Json) (he : x.errands = []) (hn : x.ending = none) :
      Step s .outside x (x.read s frame)
  | cut {x : Service} (how : Except Frame.Fault Exit) (he : x.errands = []) (hn : x.ending = none)
      (hh : how ≠ .ok .clean) :
      Step s .outside x { x with errands := farewell x.server, ending := some how }
  | launch {x : Service} {start : Launch} {es : List Errand}
      (he : x.errands = .launch start :: es) :
      Step s .inside x { x with errands := es, tenure := .called start }
  | command {x : Service} {c : Command} {es : List Errand} (he : x.errands = .command c :: es)
      (hr : x.commands.length < commandRoom) :
      Step s .inside x { x with errands := es, commands := x.commands ++ [c] }
  | join {x : Service} {h : History} {es : List Errand} (he : x.errands = .join :: es)
      (ht : x.tenure = .over h) (hc : x.carrier.ended = true) :
      Step s .inside x { x with errands := es }
  | send {x : Service} {frame : Json} {es : List Errand} (he : x.errands = .send frame :: es)
      (hr : x.outbox.length < outboxRoom) :
      Step s .inside x { x with errands := es, outbox := x.outbox ++ [.frame frame] }
  | dismiss {x : Service} {es : List Errand} (he : x.errands = .dismiss :: es)
      (hr : x.outbox.length < outboxRoom) :
      Step s .inside x { x with errands := es, outbox := x.outbox ++ [.dismissal] }
  | return {x : Service} {how : Except Frame.Fault Exit} (he : x.errands = [])
      (hn : x.ending = some how) (hw : x.writer.ended = true) (hr : x.hasReturned = false) :
      Step s .inside x { x with hasReturned := true }
  | start {x : Service} {start : Launch} (ht : x.tenure = .called start) :
      Step s .inside x
        { x with tenure := .held start.coordinator start.history start.history.events }
  | tell {x : Service} {c : Coordinator} {h : History} {e : Event} {es : List Event}
      (ht : x.tenure = .held c h (e :: es)) :
      Step s .inside x { x with tenure := .held c h es, events := x.events ++ [e] }
  | obey {x : Service} {c : Coordinator} {h : History} {m : Command} {ms : List Command}
      (ht : x.tenure = .held c h []) (hs : c.stopped = false) (hm : x.commands = m :: ms) :
      Step s .inside x { x with commands := ms, tenure := .hearing c h (.command m) }
  | hear {x : Service} {c : Coordinator} {h : History} {m : Message}
      (ht : x.tenure = .held c h []) (hs : c.stopped = false) (hm : h.Admits m)
      (hc : ∀ command, m ≠ .command command) :
      Step s .outside x { x with tenure := .hearing c h m }
  | retire {x : Service} {c : Coordinator} {h : History} (ht : x.tenure = .held c h [])
      (hs : c.stopped = true) :
      Step s .inside x { x with tenure := .over h }
  | take {x : Service} {e : Event} {es : List Event} (hh : x.carrier.hand = none)
      (hc : x.carrier.ended = false) (he : x.events = e :: es) :
      Step s .inside x { x with
        events := es
        carrier := { x.carrier with
          number := countNotice x.carrier.number e
          hand := frameOf? x.carrier.number e } }
  | put {x : Service} {frame : Json} (hh : x.carrier.hand = some frame)
      (hr : x.outbox.length < outboxRoom) :
      Step s .inside x { x with
        carrier := { x.carrier with hand := none }
        outbox := x.outbox ++ [.frame frame] }
  | leave {x : Service} {h : History} (hh : x.carrier.hand = none)
      (hc : x.carrier.ended = false) (he : x.events = []) (ht : x.tenure = .over h) :
      Step s .inside x { x with carrier := { x.carrier with ended := true } }
  | fetch {x : Service} {frame : Json} {out : List Outgoing} (hh : x.writer.hand = none)
      (hw : x.writer.ended = false) (ho : x.outbox = .frame frame :: out) :
      Step s .inside x { x with outbox := out, writer := { x.writer with hand := some frame } }
  | write {x : Service} {frame : Json} (hh : x.writer.hand = some frame) :
      Step s .inside x { x with
        writer := { x.writer with hand := none }
        written := x.written ++ [frame] }
  | close {x : Service} {out : List Outgoing} (hh : x.writer.hand = none)
      (hw : x.writer.ended = false) (ho : x.outbox = .dismissal :: out) :
      Step s .inside x { x with outbox := out, writer := { x.writer with ended := true } }

/-- What a server can come to. -/
inductive Serving (s : Surroundings) : Service → Prop
  | begun : Serving s {}
  | step {o : Origin} {x y : Service} (hx : Serving s x) (hs : Step s o x y) : Serving s y

namespace Service

/-- The frames that were written or are on their way to it, in order. -/
def path (x : Service) : List Json :=
  x.written ++ x.writer.hand.toList ++ x.outbox.filterMap Outgoing.frame?

/-- The frames the server task has still to send. -/
def due (x : Service) : List Json := x.errands.filterMap Errand.frame?

end Service

variable {x : Service} {frame : Json} {out : List Outgoing}

theorem path_append (x : Service) (frame : Json) :
    Service.path { x with outbox := x.outbox ++ [.frame frame] } = x.path ++ [frame] := by
  rw [Service.path, List.filterMap_append, ← List.append_assoc]
  rfl

theorem path_dismiss (x : Service) :
    Service.path { x with outbox := x.outbox ++ [.dismissal] } = x.path := by
  rw [Service.path, List.filterMap_append]
  exact congrArg _ (List.append_nil _)

theorem path_fetch (hh : x.writer.hand = none) (ho : x.outbox = .frame frame :: out) :
    Service.path { x with outbox := out, writer := { x.writer with hand := some frame } } =
      x.path := by
  rw [Service.path, Service.path, hh, ho, Option.toList_none, List.append_nil, List.append_assoc]
  rfl

theorem path_write (hh : x.writer.hand = some frame) :
    Service.path { x with
      writer := { x.writer with hand := none }
      written := x.written ++ [frame] } = x.path := by
  rw [Service.path, Service.path, hh, Option.toList_none, Option.toList_some, List.append_nil]

theorem path_close (ho : x.outbox = .dismissal :: out) :
    Service.path { x with outbox := out, writer := { x.writer with ended := true } } = x.path := by
  rw [Service.path, Service.path, ho]
  rfl

theorem Step.path {s : Surroundings} {o : Origin} {y : Service} (hs : Step s o x y) :
    y.path = x.path ∨
      (∃ frame, (∃ es, x.errands = .send frame :: es) ∧ y.path = x.path ++ [frame]) ∨
      ∃ frame, x.carrier.hand = some frame ∧ y.path = x.path ++ [frame] := by
  cases hs with
  | read | cut | launch | command | join | «return» => exact .inl rfl
  | start | tell | obey | hear | retire | take | leave => exact .inl rfl
  | send he => exact .inr (.inl ⟨_, ⟨_, he⟩, path_append x _⟩)
  | dismiss => exact .inl (path_dismiss x)
  | put hh => exact .inr (.inr ⟨_, hh, path_append x _⟩)
  | fetch hh hw ho => exact .inl (path_fetch hh ho)
  | write hh => exact .inl (path_write hh)
  | close hh hw ho => exact .inl (path_close ho)

end Server

end WorkflowLint

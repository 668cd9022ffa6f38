import WorkflowLint.Lint.Outcome
import WorkflowLint.Published
import WorkflowLint.Slot.Basic
import WorkflowLint.Status
import WorkflowLint.Tool.Request
import WorkflowLint.Workspace
/-!
# What the coordinator knows, hears and does

The coordinator owns all state of the open documents. It hears commands of its host, timers that
ran out and runs that ended; what it does is a list of effects. Runs and timers are known by
tickets, which are handed out in ascending order.
-/

namespace WorkflowLint

/-- A document as an editor opens it. -/
structure Document where
  url : Url
  language : String
  version : Int
  text : String
  deriving DecidableEq, Inhabited

/-- A run that was begun, with all it was begun with. -/
structure Run where
  url : Url
  ticket : Ticket
  version : Int
  request : Request
  deriving DecidableEq, Inhabited

inductive RunEnd where
  | completed (result : RunResult)
  /-- The run broke down instead of returning a result. -/
  | crashed (message : String)
  deriving DecidableEq, Inhabited

/-- What a host may ask for. -/
inductive Command where
  | opened (d : Document)
  | changed (url : Url) (version : Int) (text : String)
  /-- The host may send along the content that was saved. -/
  | saved (url : Url) (text : Option String)
  | closed (url : Url)
  /-- The user turned to a document, or away from all. -/
  | focused (url : Option Url)
  | configured (settings : Settings)
  | rooted (workspace : Workspace)
  /-- The host asks for the end, or there is no host any more. -/
  | shutdown
  deriving DecidableEq, Inhabited

/-- What the coordinator hears. -/
inductive Message where
  | command (c : Command)
  /-- The timer of a pause ran out. -/
  | elapsed (url : Url) (ticket : Ticket)
  | finished (run : Run) (result : RunEnd)
  deriving DecidableEq, Inhabited

/-- What the host learns. -/
inductive Event where
  /-- These diagnostics take the place of all others of the document. -/
  | published (url : Url) (version : Option Int) (diagnostics : List Diagnostic)
  | status (indicator : Indicator)
  | notice (n : Notice)
  /-- A run ended and was not superseded. It is the last event of that run. -/
  | settled (url : Url)
  deriving DecidableEq, Inhabited

/-- What the coordinator does. -/
inductive Effect where
  | emit (e : Event)
  | start (run : Run)
  | cancelRun (ticket : Ticket)
  | startTimer (url : Url) (ticket : Ticket) (delay : Nat)
  | stopTimer (ticket : Ticket)
  deriving DecidableEq, Inhabited

structure OpenDocument where
  version : Int
  text : String
  qualifies : Bool
  phase : Phase := .idle
  /-- The run under way. -/
  run : Slot := {}
  /-- The pause that edits wait for. -/
  pause : Slot := {}
  deriving DecidableEq, Inhabited

/-- The state of the coordinator. -/
structure Coordinator where
  settings : Settings
  workspace : Workspace := []
  documents : Table Url OpenDocument := {}
  published : Published := {}
  health : Health := .good
  active : Option Url := none
  /-- The indicator the host was told last. -/
  shown : Option Indicator := none
  stopped : Bool := false
  /-- The number of tickets handed out. -/
  issued : Nat := 0
  deriving DecidableEq, Inhabited

end WorkflowLint

import WorkflowLint.Coordinator.Handler
import WorkflowLint.Slot.Pauses
/-!
# Rehearsals

A rehearsal plays the coordinator against a tool that answers as a script says, or when it is told
to, under a clock that moves when it is told to. Commands are handled before the runs they begin
call the tool, and calls are numbered in the order of the runs.
-/

namespace WorkflowLint

structure Call where
  number : Nat
  run : Run
  deriving DecidableEq, Inhabited

/-- A coordinator with the tool and the clock of a rehearsal. -/
structure Rehearsal where
  coordinator : Coordinator
  /-- The answers of the first calls; the rest wait for theirs. -/
  script : List RunEnd := []
  now : Nat := 0
  /-- The running timers with what they are for, in ascending order of deadlines. -/
  timers : List (Timer × Url) := []
  /-- The runs that have not called the tool yet, oldest first. -/
  begun : List Run := []
  /-- The number of calls made. -/
  made : Nat := 0
  /-- The calls without an answer. -/
  waiting : List Call := []
  /-- The calls that were not cancelled. -/
  live : List Call := []
  /-- The runs that were cancelled before they called the tool. -/
  dropped : List Ticket := []
  /-- What the host was told in this step, last first. -/
  events : List Event := []
  /-- The calls made in this step, last first. -/
  calls : List Call := []
  /-- The numbers of the calls cancelled in this step. -/
  cancelled : List Nat := []
  deriving Inhabited

namespace Rehearsal

/-- Cancel a call, or the run that has not called yet. -/
def cancelRun (r : Rehearsal) (t : Ticket) : Rehearsal :=
  let (gone, live) := r.live.partition fun c => c.run.ticket = t
  { r with
    live
    dropped := if gone = [] then t :: r.dropped else r.dropped
    cancelled := r.cancelled ++ gone.map (·.number) }

def perform (r : Rehearsal) : Effect → Rehearsal
  | .emit e => { r with events := e :: r.events }
  | .start run => { r with begun := r.begun ++ [run] }
  | .cancelRun t => r.cancelRun t
  | .startTimer url t delay =>
    { r with timers := Timer.insert Prod.fst (⟨t, r.now + delay⟩, url) r.timers }
  | .stopTimer t => { r with timers := r.timers.filter fun u => u.1.ticket ≠ t }

def hear (r : Rehearsal) (m : Message) : Rehearsal :=
  let (coordinator, effects) := r.coordinator.handle m
  effects.foldl perform { r with coordinator }

/-- Let a run call the tool. -/
def call (r : Rehearsal) (run : Run) : Rehearsal :=
  let c : Call := { number := r.made, run }
  let isDropped := r.dropped.contains run.ticket
  { r with
    made := r.made + 1
    waiting := r.waiting ++ [c]
    live := if isDropped then r.live else r.live ++ [c]
    calls := c :: r.calls
    cancelled := if isDropped then r.cancelled ++ [c.number] else r.cancelled }

/-- Answer a call; only the first answer counts. -/
def answer (r : Rehearsal) (number : Nat) (result : RunEnd) : Rehearsal :=
  match r.waiting.find? fun c => c.number = number with
  | none => r
  | some c =>
    { r with waiting := r.waiting.filter fun c => c.number ≠ number }.hear (.finished c.run result)

/-- Let all runs call the tool, and give the answers of the script. -/
def settle (r : Rehearsal) : Rehearsal :=
  let first := r.made
  let r := r.begun.foldl call { r with begun := [] }
  (List.range' first (r.made - first)).foldl
    (fun r number =>
      match r.script[number]? with
      | some result => r.answer number result
      | none => r)
    r

def commands (r : Rehearsal) (cs : List Command) : Rehearsal :=
  (cs.foldl (fun r c => r.hear (.command c)) r).settle

/-- Let a timer run out, unless it was stopped. -/
def ring (r : Rehearsal) (t : Timer × Url) : Rehearsal :=
  if r.timers.contains t then
    ({ r with now := max r.now t.1.deadline, timers := r.timers.erase t }.hear
      (.elapsed t.2 t.1.ticket)).settle
  else r

def advance (r : Rehearsal) (delay : Nat) : Rehearsal :=
  let target := r.now + delay
  let r := (r.timers.filter fun t => t.1.deadline ≤ target).foldl ring r
  { r with now := target }

/-- The numbers of the calls cancelled in this step, in ascending order. -/
def cancelledNumbers (r : Rehearsal) : List Nat := r.cancelled.mergeSort

/-- Begin a step: nothing has happened in it. -/
def clearStep (r : Rehearsal) : Rehearsal := { r with events := [], calls := [], cancelled := [] }

def launch (script : List RunEnd) (settings : Settings) (workspace : Workspace)
    (ds : List Document) : Rehearsal :=
  let (coordinator, effects) := Coordinator.launch settings workspace ds
  (effects.foldl perform { coordinator, script }).settle

end Rehearsal

end WorkflowLint

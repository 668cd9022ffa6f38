import WorkflowLint.Slot.Board
/-!
# Pauses

A pause ends when nothing has been scheduled on its slot for a while. Each schedule takes the
place of the one before it and starts a timer; a timer that runs out sends its ticket, which counts
only while it is still the present one of its slot. Time is a number of milliseconds that moves
when it is told to.
-/

namespace WorkflowLint

/-- A running timer. -/
structure Timer where
  ticket : Ticket
  deadline : Nat
  deriving DecidableEq, Inhabited

/-- Pauses on the slots of a board. -/
structure Pauses where
  board : Board
  now : Nat := 0
  /-- The timers that run, in ascending order of deadlines. -/
  timers : List Timer := []
  /-- The tickets that were sent, the last one first. -/
  sent : List Ticket := []
  deriving DecidableEq, Inhabited

namespace Timer

variable {α : Type} {timer : α → Timer}

/-- Put something that has a timer after all whose timers do not end later. -/
def insert (timer : α → Timer) (a : α) : List α → List α
  | [] => [a]
  | b :: bs =>
    if (timer b).deadline ≤ (timer a).deadline then b :: insert timer a bs else a :: b :: bs

theorem perm_insert (a : α) (bs : List α) : (insert timer a bs).Perm (a :: bs) := by
  induction bs with
  | nil => exact List.Perm.refl _
  | cons b bs ih =>
    rw [insert]
    split
    · exact (ih.cons b).trans (List.Perm.swap a b bs)
    · exact List.Perm.refl _

end Timer

namespace Pauses

def ofSize (n : Nat) : Pauses := { board := Board.ofSize n }

def stopCancelled (p : Pauses) : Pauses :=
  { p with timers := p.timers.filter fun t => !p.board.isCancelled t.ticket }

/-- Send the tickets of the timers that have run out. -/
def ring (p : Pauses) : Pauses :=
  { p with
    timers := p.timers.filter fun t => p.now < t.deadline
    sent := ((p.timers.filter fun t => t.deadline ≤ p.now).map (·.ticket)).reverse ++ p.sent }

/-- Schedule after a delay, in place of what was scheduled on the slot. -/
def schedule (p : Pauses) (i delay : Nat) : Ticket × Pauses :=
  let (t, board) := p.board.begin i
  let p := { p with board }.stopCancelled
  (t, { p with timers := Timer.insert id ⟨t, p.now + delay⟩ p.timers }.ring)

/-- Give up what was scheduled on a slot. -/
def cancel (p : Pauses) (i : Nat) : Pauses :=
  { p with board := p.board.cancel i }.stopCancelled

def advance (p : Pauses) (delay : Nat) : Pauses :=
  { p with now := p.now + delay }.ring

/-- Claim a ticket that was sent; whether it still counted. -/
def fire (p : Pauses) (i : Nat) (t : Ticket) : Bool × Pauses :=
  match p.board.settle i t () with
  | (.current _, board) => (true, { p with board })
  | (.stale, board) => (false, { p with board })

/-- Whether something is scheduled on a slot, or sent and not claimed. -/
def isPending (p : Pauses) (i : Nat) : Bool := (p.board.slot i).isOccupied

end Pauses

end WorkflowLint

/-!
# Slots

A slot holds at most one operation at a time, known by its ticket. No two operations share a
ticket, so an operation that ends is the present one iff the slot holds its ticket. An operation
that makes room for another, or is given up, is cancelled and never counts as present again.
-/

namespace WorkflowLint

/-- Names one operation. -/
structure Ticket where
  number : Nat
  deriving DecidableEq, Inhabited

structure Slot where
  occupant : Option Ticket := none
  deriving DecidableEq, Inhabited

namespace Slot

def isOccupied (s : Slot) : Bool := s.occupant.isSome

/-- Whether a ticket names the operation under way. -/
def holds (s : Slot) (t : Ticket) : Bool := s.occupant = some t

@[simp] theorem holds_empty (t : Ticket) : ({} : Slot).holds t = false := rfl

/-- The slot after its operation ended; none when the ticket names another. -/
def settle? (s : Slot) (t : Ticket) : Option Slot :=
  if s.holds t then some {} else none

theorem settle?_eq_some_iff {s s' : Slot} {t : Ticket} :
    s.settle? t = some s' ↔ s.occupant = some t ∧ s' = {} := by
  simp [settle?, holds, eq_comm]

end Slot

end WorkflowLint

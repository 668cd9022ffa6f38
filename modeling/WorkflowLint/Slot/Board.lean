import WorkflowLint.Slot.Basic
/-!
# Boards of slots

A board has some slots and hands out the tickets for all of them. It knows which tickets were
cancelled.
-/

namespace WorkflowLint

/-- What an operation learns when it ends. -/
inductive Verdict (α : Type) where
  | current (value : α)
  | stale
  deriving DecidableEq, Inhabited

/-- Slots and the tickets handed out for them. -/
structure Board where
  slots : List Slot
  /-- The number of tickets handed out. -/
  issued : Nat := 0
  cancelled : List Ticket := []
  deriving DecidableEq, Inhabited

namespace Board

def ofSize (n : Nat) : Board := { slots := List.replicate n {} }

def slot (b : Board) (i : Nat) : Slot := (b.slots[i]?).getD {}

/-- Put a slot in its place; the operation that was there is cancelled. -/
def replace (b : Board) (i : Nat) (s : Slot) : Board :=
  { b with slots := b.slots.set i s, cancelled := (b.slot i).occupant.toList ++ b.cancelled }

def begin (b : Board) (i : Nat) : Ticket × Board :=
  (⟨b.issued⟩, { b.replace i ⟨some ⟨b.issued⟩⟩ with issued := b.issued + 1 })

def cancel (b : Board) (i : Nat) : Board := b.replace i {}

def settle {α : Type} (b : Board) (i : Nat) (t : Ticket) (value : α) : Verdict α × Board :=
  match (b.slot i).settle? t with
  | some s => (.current value, { b with slots := b.slots.set i s })
  | none => (.stale, b)

/-- Whether a ticket names the present operation of a slot. -/
def isCurrent (b : Board) (i : Nat) (t : Ticket) : Bool := (b.slot i).holds t

def isCancelled (b : Board) (t : Ticket) : Bool := b.cancelled.contains t

end Board

end WorkflowLint

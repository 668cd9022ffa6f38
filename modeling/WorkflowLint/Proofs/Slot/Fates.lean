import WorkflowLint.Slot.Board
import WorkflowLint.Proofs.Splits
import Mathlib.Data.List.Basic
import Mathlib.Logic.ExistsUnique
/-!
# The fates of tickets

A bench is a board of slots with the runs on it and the log of what was done. A ticket that was
handed out names the present operation of its slot, or it settled while it did, or it was cancelled,
and never two of these at once (`Fate`). Which of them it is can be told from the log alone: a slot
holds the ticket begun last in it unless it was cancelled or settled since (`IsLatest`). `Sound` says
that the board is in step with its log; beginning, cancelling and settling keep it so, and all that
can be done with slots comes down to these three.
-/

namespace WorkflowLint

namespace Bench

/-- What can be done with `n` slots. -/
inductive Step (n : Nat) (α : Type) where
  | begin (i : Fin n)
  | cancel (i : Fin n)
  | settle (i : Fin n) (t : Ticket) (value : α)
  /-- Begin an operation that is settled when it returns. -/
  | run (i : Fin n)
  /-- The operation of a run returns. -/
  | finish (r : Nat) (value : α)

/-- What was done. -/
inductive Deed (n : Nat) (α : Type) where
  | begun (i : Fin n) (t : Ticket)
  | cancelled (i : Fin n)
  | settled (i : Fin n) (t : Ticket) (verdict : Verdict α)
  deriving DecidableEq

/-- Whether a deed leaves a slot without the operation that was in it. -/
def Deed.Clears {n : Nat} {α : Type} (i : Fin n) : Deed n α → Prop
  | .begun j _ => j = i
  | .cancelled j => j = i
  | .settled j _ (.current _) => j = i
  | .settled _ _ .stale => False

/-- Whether a deed gives up the operation that was in a slot. -/
def Deed.GivesUp {n : Nat} {α : Type} (i : Fin n) : Deed n α → Prop
  | .begun j _ => j = i
  | .cancelled j => j = i
  | .settled _ _ _ => False

/-- Of what was begun in a slot it was the last, and the slot was neither cancelled nor settled
since. -/
def IsLatest {n : Nat} {α : Type} (log : List (Deed n α)) (i : Fin n) (t : Ticket) : Prop :=
  ∃ pre post, log = pre ++ .begun i t :: post ∧ ∀ d ∈ post, ¬ d.Clears i

end Bench

/-- Slots, the runs on them and what was done. -/
structure Bench (n : Nat) (α : Type) where
  board : Board := .ofSize n
  /-- The slots and tickets of the runs, without those that returned. -/
  runs : List (Option (Fin n × Ticket)) := []
  log : List (Bench.Deed n α) := []

/-- What becomes of a ticket. -/
inductive Fate where
  | current
  | settled
  | cancelled
  deriving DecidableEq

namespace Bench

variable {n : Nat} {α : Type}

/-! ## What is done -/

def begin (b : Bench n α) (i : Fin n) : Bench n α :=
  { b with board := (b.board.begin i).2, log := b.log ++ [.begun i (b.board.begin i).1] }

def cancel (b : Bench n α) (i : Fin n) : Bench n α :=
  { b with board := b.board.cancel i, log := b.log ++ [.cancelled i] }

def settle (b : Bench n α) (i : Fin n) (t : Ticket) (value : α) : Bench n α :=
  { b with
    board := (b.board.settle i t value).2
    log := b.log ++ [.settled i t (b.board.settle i t value).1] }

/-- The slot and the ticket of a run that has not returned. -/
def run? (b : Bench n α) (r : Nat) : Option (Fin n × Ticket) := (b.runs[r]?).join

def step (b : Bench n α) : Step n α → Bench n α
  | .begin i => b.begin i
  | .cancel i => b.cancel i
  | .settle i t value => b.settle i t value
  | .run i => { b.begin i with runs := b.runs ++ [some (i, (b.board.begin i).1)] }
  | .finish r value =>
    match b.run? r with
    | none => b
    | some (i, t) => { b.settle i t value with runs := b.runs.set r none }

def after (steps : List (Step n α)) : Bench n α := steps.foldl step {}

/-- A ticket settled while it named the present operation. -/
def HasSettled (b : Bench n α) (t : Ticket) : Prop := ∃ i v, .settled i t (.current v) ∈ b.log

/-- Whether a deed settled a ticket that named the present operation. -/
def Deed.settles (t : Ticket) : Deed n α → Bool
  | .settled _ u (.current _) => u = t
  | _ => false

end Bench

/-- What a fate means for a ticket of a slot. -/
def Fate.Holds {n : Nat} {α : Type} (b : Bench n α) (i : Fin n) (t : Ticket) : Fate → Prop
  | .current => b.board.isCurrent i t = true ∧ b.board.isCancelled t = false
  | .settled => b.HasSettled t ∧ b.board.isCancelled t = false
  | .cancelled => b.board.isCancelled t = true ∧ ∀ j : Fin n, b.board.isCurrent j t = false

/-! ## Boards -/

namespace Board

variable {n : Nat} {α : Type} {b : Board} {i j : Nat} {t u : Ticket}

theorem isCurrent_iff : b.isCurrent i t = true ↔ (b.slot i).occupant = some t := by
  simp [isCurrent, Slot.holds]

theorem slot_set (hi : i < b.slots.length) (s : Slot) (j : Nat) :
    ({ b with slots := b.slots.set i s } : Board).slot j = if j = i then s else b.slot j := by
  by_cases hj : j = i
  · subst hj
    simp [slot, hi]
  · simp [slot, hj, Ne.symm hj]

theorem isCurrent_replace (hi : i < b.slots.length) (s : Slot) :
    (b.replace i s).isCurrent j t = true ↔
      j = i ∧ s.occupant = some t ∨ j ≠ i ∧ b.isCurrent j t = true := by
  have hslot : (b.replace i s).slot j = if j = i then s else b.slot j := slot_set hi s j
  rw [isCurrent_iff, isCurrent_iff, hslot]
  by_cases hj : j = i <;> simp [hj]

theorem isCancelled_replace (s : Slot) :
    (b.replace i s).isCancelled t = true ↔ b.isCurrent i t = true ∨ b.isCancelled t = true := by
  simp [isCancelled, replace, isCurrent_iff]

theorem isCurrent_begin (hi : i < b.slots.length) :
    (b.begin i).2.isCurrent j t = true ↔
      j = i ∧ t = (b.begin i).1 ∨ j ≠ i ∧ b.isCurrent j t = true := by
  have hreplace := isCurrent_replace (j := j) (t := t) hi ⟨some ⟨b.issued⟩⟩
  rw [Option.some.injEq, eq_comm (a := (⟨b.issued⟩ : Ticket))] at hreplace
  exact hreplace

theorem isCurrent_cancel (hi : i < b.slots.length) :
    (b.cancel i).isCurrent j t = true ↔ j ≠ i ∧ b.isCurrent j t = true := by
  rw [cancel, isCurrent_replace hi]
  simp

theorem settle_of_current (ht : b.isCurrent i t = true) (value : α) :
    b.settle i t value = (.current value, { b with slots := b.slots.set i {} }) := by
  rw [settle, Slot.settle?_eq_some_iff.mpr ⟨isCurrent_iff.mp ht, rfl⟩]

theorem settle_of_not_current (ht : b.isCurrent i t = false) (value : α) :
    b.settle i t value = (.stale, b) := by
  have hs : (b.slot i).settle? t = none := by
    rw [Slot.settle?]
    exact if_neg (by rw [← isCurrent, ht]; decide)
  rw [settle, hs]

theorem isCurrent_vacated (hi : i < b.slots.length) :
    ({ b with slots := b.slots.set i {} } : Board).isCurrent j t = true ↔
      j ≠ i ∧ b.isCurrent j t = true := by
  rw [isCurrent_iff, isCurrent_iff, slot_set hi]
  by_cases hj : j = i <;> simp [hj]

end Board

namespace Bench

variable {n : Nat} {α : Type} {b : Bench n α} {i j : Fin n} {t u : Ticket}

/-! ## The log -/

theorem isLatest_snoc {log : List (Deed n α)} {d : Deed n α} :
    IsLatest (log ++ [d]) i t ↔ d = .begun i t ∨ IsLatest log i t ∧ ¬ d.Clears i := by
  constructor
  · rintro ⟨pre, post, hlog, hpost⟩
    obtain ⟨post', rfl, rfl⟩ | ⟨-, rfl, -⟩ := eq_append_of_concat hlog
    · refine .inr ⟨⟨pre, post', rfl, fun e he => hpost e (List.mem_append_left _ he)⟩, ?_⟩
      exact hpost d (List.mem_append_right _ List.mem_cons_self)
    · exact .inl rfl
  · rintro (rfl | ⟨⟨pre, post, rfl, hpost⟩, hd⟩)
    · exact ⟨log, [], rfl, fun e he => absurd he List.not_mem_nil⟩
    · refine ⟨pre, post ++ [d], by simp, fun e he => ?_⟩
      obtain he | he := List.mem_append.mp he
      · exact hpost e he
      · exact List.mem_singleton.mp he ▸ hd

theorem IsLatest.mem {log : List (Deed n α)} (h : IsLatest log i t) : .begun i t ∈ log := by
  obtain ⟨pre, post, rfl, -⟩ := h
  exact List.mem_append_right _ List.mem_cons_self

/-! ## In step with the log -/

/-- A board is in step with its log. -/
structure Sound (b : Bench n α) : Prop where
  size : b.board.slots.length = n
  issued : ∀ (i : Fin n) t, .begun i t ∈ b.log → t.number < b.board.issued
  home : ∀ (i j : Fin n) t, .begun i t ∈ b.log → .begun j t ∈ b.log → i = j
  current : ∀ (i : Fin n) t, b.board.isCurrent i t = true ↔ IsLatest b.log i t
  settled : ∀ (i : Fin n) t v, .settled i t (.current v) ∈ b.log →
    .begun i t ∈ b.log ∧ b.board.isCancelled t = false ∧ ∀ j : Fin n, b.board.isCurrent j t = false
  cancelled : ∀ t, b.board.isCancelled t = true →
    (∃ i : Fin n, .begun i t ∈ b.log) ∧ ∀ j : Fin n, b.board.isCurrent j t = false
  covered : ∀ (i : Fin n) t, .begun i t ∈ b.log →
    b.board.isCurrent i t = true ∨ b.HasSettled t ∨ b.board.isCancelled t = true
  once : ∀ t, b.log.countP (Deed.settles t) ≤ 1

/-- What a deed makes of a bench. -/
structure Follows (b : Bench n α) (d : Deed n α) (b' : Bench n α) : Prop where
  log : b'.log = b.log ++ [d]
  size : b'.board.slots.length = b.board.slots.length
  issued : b.board.issued ≤ b'.board.issued
  fresh : ∀ i t, d = .begun i t → b.board.issued ≤ t.number ∧ t.number < b'.board.issued
  current : ∀ (i : Fin n) t, b'.board.isCurrent i t = true ↔
    d = .begun i t ∨ b.board.isCurrent i t = true ∧ ¬ d.Clears i
  cancelled : ∀ t, b'.board.isCancelled t = true ↔
    b.board.isCancelled t = true ∨ ∃ i : Fin n, d.GivesUp i ∧ b.board.isCurrent i t = true
  settled : ∀ i t v, d = .settled i t (.current v) → b.board.isCurrent i t = true

variable {b' : Bench n α} {d : Deed n α}

theorem Deed.GivesUp.clears (h : d.GivesUp i) : d.Clears i := by
  cases d with
  | begun => exact h
  | cancelled => exact h
  | settled => exact h.elim

theorem Deed.Clears.cases (h : d.Clears i) : d.GivesUp i ∨ ∃ t v, d = .settled i t (.current v) := by
  cases d with
  | begun => exact .inl h
  | cancelled => exact .inl h
  | settled j t verdict =>
    cases verdict with
    | current v =>
      obtain rfl := h
      exact .inr ⟨t, v, rfl⟩
    | stale => exact h.elim

theorem exists_of_settles (h : d.settles t = true) : ∃ i v, d = .settled i t (.current v) := by
  cases d with
  | begun => cases h
  | cancelled => cases h
  | settled i u verdict =>
    cases verdict with
    | current v => exact ⟨i, v, by rw [of_decide_eq_true h]⟩
    | stale => cases h

theorem Sound.lt_length (h : Sound b) (i : Fin n) : i.val < b.board.slots.length := by
  rw [h.size]
  exact i.isLt

theorem Sound.begun_of_current (h : Sound b) (ht : b.board.isCurrent i t = true) :
    .begun i t ∈ b.log :=
  ((h.current i t).mp ht).mem

theorem Sound.eq_of_current (h : Sound b) (hi : b.board.isCurrent i t = true)
    (hj : b.board.isCurrent j t = true) : i = j :=
  h.home i j t (h.begun_of_current hi) (h.begun_of_current hj)

/-- A ticket that was handed out is not current after a deed unless it was before, and then the
deed left its slot alone. -/
theorem Sound.not_current (h : Sound b) (hd : Follows b d b') (ht : .begun i t ∈ b.log)
    (hclear : ∀ j : Fin n, b.board.isCurrent j t = true → d.Clears j) (j : Fin n) :
    b'.board.isCurrent j t = false := by
  rw [← Bool.not_eq_true, hd.current]
  rintro (hbegun | ⟨hcurrent, hkept⟩)
  · exact absurd (h.issued i t ht) (Nat.not_lt.mpr (hd.fresh j t hbegun).1)
  · exact hkept (hclear j hcurrent)

theorem Sound.settled_snoc (h : Sound b) (hd : Follows b d b') (i : Fin n) (t : Ticket) (v : α)
    (hs : .settled i t (.current v) ∈ b'.log) :
    .begun i t ∈ b'.log ∧ b'.board.isCancelled t = false ∧
      ∀ j : Fin n, b'.board.isCurrent j t = false := by
  rw [hd.log] at hs ⊢
  obtain hs | hs := List.mem_append.mp hs
  · obtain ⟨hbegun, hcancelled, hcurrent⟩ := h.settled i t v hs
    refine ⟨List.mem_append_left _ hbegun, ?_, h.not_current hd hbegun fun j hj => ?_⟩
    · rw [← Bool.not_eq_true, hd.cancelled]
      rintro (hc | ⟨j, -, hj⟩)
      · rw [hcancelled] at hc
        cases hc
      · rw [hcurrent j] at hj
        cases hj
    · rw [hcurrent j] at hj
      cases hj
  · -- it settles just now, so it was current
    obtain rfl := List.mem_singleton.mp hs
    have hi := hd.settled i t v rfl
    refine ⟨List.mem_append_left _ (h.begun_of_current hi), ?_,
      h.not_current hd (h.begun_of_current hi) fun j hj => h.eq_of_current hi hj⟩
    rw [← Bool.not_eq_true, hd.cancelled]
    rintro (hc | ⟨j, hj, -⟩)
    · rw [(h.cancelled t hc).2 i] at hi
      cases hi
    · exact hj

theorem Sound.cancelled_snoc (h : Sound b) (hd : Follows b d b') (t : Ticket)
    (hc : b'.board.isCancelled t = true) :
    (∃ i : Fin n, .begun i t ∈ b'.log) ∧ ∀ j : Fin n, b'.board.isCurrent j t = false := by
  rw [hd.log]
  obtain hc | ⟨i, hi, hcurrent⟩ := (hd.cancelled t).mp hc
  · obtain ⟨⟨i, hbegun⟩, hnone⟩ := h.cancelled t hc
    refine ⟨⟨i, List.mem_append_left _ hbegun⟩, h.not_current hd hbegun fun j hj => ?_⟩
    rw [hnone j] at hj
    cases hj
  · have hbegun := h.begun_of_current hcurrent
    refine ⟨⟨i, List.mem_append_left _ hbegun⟩, h.not_current hd hbegun fun j hj => ?_⟩
    obtain rfl := h.eq_of_current hcurrent hj
    exact hi.clears

theorem Sound.covered_snoc (h : Sound b) (hd : Follows b d b') (i : Fin n) (t : Ticket)
    (ht : .begun i t ∈ b'.log) :
    b'.board.isCurrent i t = true ∨ b'.HasSettled t ∨ b'.board.isCancelled t = true := by
  have hsettled : ∀ {j v}, .settled j t (.current v) ∈ b.log ++ [d] → b'.HasSettled t :=
    fun hs => ⟨_, _, hd.log ▸ hs⟩
  rw [hd.log] at ht
  obtain ht | ht := List.mem_append.mp ht
  · obtain hcurrent | ⟨j, v, hs⟩ | hc := h.covered i t ht
    · by_cases hclear : d.Clears i
      · obtain hgiven | ⟨u, v, rfl⟩ := hclear.cases
        · exact .inr (.inr ((hd.cancelled t).mpr (.inr ⟨i, hgiven, hcurrent⟩)))
        · -- the slot holds one ticket
          have hu := hd.settled i u v rfl
          rw [Board.isCurrent_iff] at hu hcurrent
          obtain rfl := Option.some.inj (hu.symm.trans hcurrent)
          exact .inr (.inl (hsettled (List.mem_append_right _ List.mem_cons_self)))
      · exact .inl ((hd.current i t).mpr (.inr ⟨hcurrent, hclear⟩))
    · exact .inr (.inl (hsettled (List.mem_append_left _ hs)))
    · exact .inr (.inr ((hd.cancelled t).mpr (.inl hc)))
  · exact .inl ((hd.current i t).mpr (.inl (List.mem_singleton.mp ht).symm))

theorem Sound.once_snoc (h : Sound b) (hd : Follows b d b') (t : Ticket) :
    b'.log.countP (Deed.settles t) ≤ 1 := by
  rw [hd.log, List.countP_append, List.countP_singleton]
  split_ifs with hs
  · -- it was current, so it had not settled
    have hzero : b.log.countP (Deed.settles t) = 0 := by
      rw [List.countP_eq_zero]
      intro e he hes
      obtain ⟨i, v, rfl⟩ := exists_of_settles hs
      obtain ⟨j, w, rfl⟩ := exists_of_settles hes
      have hcurrent := hd.settled i t v rfl
      rw [(h.settled j t w he).2.2 i] at hcurrent
      cases hcurrent
    exact Nat.le_of_eq (by rw [hzero])
  · exact h.once t

theorem Sound.follows (h : Sound b) (hd : Follows b d b') : Sound b' where
  size := hd.size.trans h.size
  issued i t ht := by
    rw [hd.log] at ht
    obtain ht | ht := List.mem_append.mp ht
    · exact Nat.lt_of_lt_of_le (h.issued i t ht) hd.issued
    · exact (hd.fresh i t (List.mem_singleton.mp ht).symm).2
  home i j t hi hj := by
    have hnew : ∀ {i j : Fin n}, .begun i t ∈ b.log → d = .begun j t → False := fun hi hj =>
      absurd (h.issued _ t hi) (Nat.not_lt.mpr (hd.fresh _ t hj).1)
    rw [hd.log, List.mem_append, List.mem_singleton, eq_comm (b := d)] at hi hj
    obtain hi | hi := hi <;> obtain hj | hj := hj
    · exact h.home i j t hi hj
    · exact (hnew hi hj).elim
    · exact (hnew hj hi).elim
    · cases hi
      cases hj
      rfl
  current i t := by rw [hd.current, h.current, hd.log, isLatest_snoc]
  settled := h.settled_snoc hd
  cancelled := h.cancelled_snoc hd
  covered := h.covered_snoc hd
  once := h.once_snoc hd

/-! ## What can be done -/

theorem follows_begin (h : Sound b) (i : Fin n) :
    Follows b (.begun i (b.board.begin i).1) (b.begin i) where
  log := rfl
  size := List.length_set
  issued := Nat.le_succ _
  fresh j t ht := by
    cases ht
    exact ⟨Nat.le_refl _, Nat.lt_succ_self _⟩
  current j t := by
    have hcurrent := Board.isCurrent_begin (j := j) (t := t) (h.lt_length i)
    rw [Fin.val_inj, Ne, Fin.val_inj] at hcurrent
    rw [Bench.begin, hcurrent, Deed.begun.injEq, Deed.Clears, eq_comm (a := i), and_comm (a := ¬ j = i),
      eq_comm (a := t)]
  cancelled t := by
    have hcancelled := Board.isCancelled_replace (b := b.board) (i := i) (t := t)
      ⟨some ⟨b.board.issued⟩⟩
    rw [or_comm] at hcancelled
    simpa [Bench.begin, Board.begin, Deed.GivesUp, Board.isCancelled] using hcancelled
  settled j t v ht := by cases ht

theorem follows_cancel (h : Sound b) (i : Fin n) : Follows b (.cancelled i) (b.cancel i) where
  log := rfl
  size := List.length_set
  issued := Nat.le_refl _
  fresh j t ht := by cases ht
  current j t := by
    have hcurrent := Board.isCurrent_cancel (j := j) (t := t) (h.lt_length i)
    rw [Ne, Fin.val_inj] at hcurrent
    rw [Bench.cancel, hcurrent, or_iff_right (by nofun), Deed.Clears, eq_comm (a := i),
      and_comm (a := ¬ j = i)]
  cancelled t := by
    have hcancelled := Board.isCancelled_replace (b := b.board) (i := i) (t := t) {}
    rw [or_comm] at hcancelled
    simpa [Bench.cancel, Board.cancel, Deed.GivesUp] using hcancelled
  settled j t v ht := by cases ht

theorem follows_settle (h : Sound b) (i : Fin n) (t : Ticket) (value : α) :
    Follows b (.settled i t (b.board.settle i t value).1) (b.settle i t value) := by
  cases ht : b.board.isCurrent i t with
  | false =>
    rw [Bench.settle, Board.settle_of_not_current ht]
    exact {
      log := rfl
      size := rfl
      issued := Nat.le_refl _
      fresh := by nofun
      current := fun j u => by simp [Deed.Clears]
      cancelled := fun u => by simp [Deed.GivesUp]
      settled := by nofun }
  | true =>
    rw [Bench.settle, Board.settle_of_current ht]
    exact {
      log := rfl
      size := List.length_set
      issued := Nat.le_refl _
      fresh := by nofun
      current := fun j u => by
        have hcurrent := Board.isCurrent_vacated (j := j) (t := u) (h.lt_length i)
        rw [Ne, Fin.val_inj] at hcurrent
        rw [hcurrent, or_iff_right (by nofun), Deed.Clears, eq_comm (a := i),
          and_comm (a := ¬ j = i)]
      cancelled := fun u => by simp [Deed.GivesUp, Board.isCancelled]
      settled := fun j u v hd => by
        cases hd
        exact ht }

theorem sound_start : Sound ({} : Bench n α) where
  size := List.length_replicate
  issued i t ht := absurd ht List.not_mem_nil
  home i j t ht := absurd ht List.not_mem_nil
  current i t := by
    have hempty : ({} : Bench n α).board.isCurrent i t = false := by
      simp [Board.isCurrent, Board.slot, Board.ofSize]
    rw [hempty]
    exact ⟨fun hf => Bool.noConfusion hf, fun hlatest => absurd hlatest.mem List.not_mem_nil⟩
  settled i t v ht := absurd ht List.not_mem_nil
  cancelled t ht := by cases ht
  covered i t ht := absurd ht List.not_mem_nil
  once t := Nat.zero_le 1

theorem Sound.withRuns (h : Sound b) (runs : List (Option (Fin n × Ticket))) :
    Sound { b with runs } := { h with }

theorem Sound.step (h : Sound b) (s : Step n α) : Sound (b.step s) := by
  cases s with
  | begin i => exact h.follows (follows_begin h i)
  | cancel i => exact h.follows (follows_cancel h i)
  | settle i t value => exact h.follows (follows_settle h i t value)
  | run i => exact (h.follows (follows_begin h i)).withRuns _
  | finish r value =>
    rw [Bench.step]
    split
    · exact h
    · rename_i i t _
      exact (h.follows (follows_settle h i t value)).withRuns _

theorem Sound.foldl (h : Sound b) (steps : List (Step n α)) : Sound (steps.foldl Bench.step b) := by
  induction steps generalizing b with
  | nil => exact h
  | cons s steps ih => exact ih (h.step s)

theorem sound_after (steps : List (Step n α)) : Sound (after steps) := sound_start.foldl steps

theorem log_step (b : Bench n α) (s : Step n α) : b.log <+: (b.step s).log := by
  cases s with
  | begin | cancel | settle | run => exact List.prefix_append _ _
  | finish r value =>
    rw [Bench.step]
    split
    · exact List.prefix_refl _
    · exact List.prefix_append _ _

theorem log_foldl (b : Bench n α) (steps : List (Step n α)) :
    b.log <+: (steps.foldl Bench.step b).log := by
  induction steps generalizing b with
  | nil => exact List.prefix_refl _
  | cons s steps ih => exact (log_step b s).trans (ih (b.step s))

/-! ## The three fates -/

theorem Sound.settled_holds (h : Sound b) (ht : b.HasSettled t) : Fate.settled.Holds b i t := by
  obtain ⟨j, v, hs⟩ := ht
  exact ⟨⟨j, v, hs⟩, (h.settled j t v hs).2.1⟩

theorem Sound.current_holds (h : Sound b) (ht : b.board.isCurrent i t = true) :
    Fate.current.Holds b i t := by
  refine ⟨ht, ?_⟩
  rw [← Bool.not_eq_true]
  intro hc
  rw [(h.cancelled t hc).2 i] at ht
  cases ht

theorem Sound.existsUnique_fate (h : Sound b) (ht : .begun i t ∈ b.log) :
    ∃! fate : Fate, fate.Holds b i t := by
  obtain hcurrent | hs | hc := h.covered i t ht
  · refine ⟨.current, h.current_holds hcurrent, fun fate hf => ?_⟩
    cases fate with
    | current => rfl
    | settled =>
      obtain ⟨⟨j, v, hs⟩, -⟩ := hf
      rw [(h.settled j t v hs).2.2 i] at hcurrent
      cases hcurrent
    | cancelled =>
      rw [hf.2 i] at hcurrent
      cases hcurrent
  · refine ⟨.settled, h.settled_holds hs, fun fate hf => ?_⟩
    obtain ⟨j, v, hs⟩ := hs
    obtain ⟨-, hcancelled, hnone⟩ := h.settled j t v hs
    cases fate with
    | current => exact absurd (hf.1.symm.trans (hnone i)) (by decide)
    | settled => rfl
    | cancelled => exact absurd (hf.1.symm.trans hcancelled) (by decide)
  · refine ⟨.cancelled, ⟨hc, (h.cancelled t hc).2⟩, fun fate hf => ?_⟩
    cases fate with
    | current => exact absurd (hc.symm.trans hf.2) (by decide)
    | settled => exact absurd (hc.symm.trans hf.2) (by decide)
    | cancelled => rfl

theorem Sound.settle_of_current (h : Sound b) (ht : b.board.isCurrent i t = true) (value : α) :
    (b.board.settle i t value).1 = .current value ∧
      Fate.settled.Holds (b.settle i t value) i t := by
  have hverdict := congrArg Prod.fst (Board.settle_of_current ht value)
  refine ⟨hverdict, (h.follows (follows_settle h i t value)).settled_holds ⟨i, value, ?_⟩⟩
  rw [Bench.settle, hverdict]
  exact List.mem_append_right _ List.mem_cons_self

theorem Sound.settle_of_not_current (h : Sound b) (hbegun : .begun i t ∈ b.log)
    (ht : ¬ (j = i ∧ b.board.isCurrent i t = true)) (value : α) :
    b.board.settle j t value = (.stale, b.board) := by
  refine Board.settle_of_not_current ?_ value
  rw [← Bool.not_eq_true]
  intro hj
  obtain rfl := h.home j i t (h.begun_of_current hj) hbegun
  exact ht ⟨rfl, hj⟩

theorem log_finish {r : Nat} (hr : b.run? r = some (i, t)) (value : α) :
    (b.step (.finish r value)).log = b.log ++ [.settled i t (b.board.settle i t value).1] := by
  simp only [Bench.step, hr]
  rfl

/-- After whatever was done, a ticket that was handed out has one fate. Settled, it stays so. Only
a current ticket settles, in its own slot and once; what else is settled is stale, and nothing
changes. A run that returns settles iff it was begun last in its slot, and the slot was neither
cancelled nor settled since. -/
theorem trichotomy (steps : List (Step n α)) :
    let b : Bench n α := after steps
    (∀ (i : Fin n) t, .begun i t ∈ b.log →
      (∃! fate : Fate, fate.Holds b i t) ∧
      (Fate.settled.Holds b i t → ∀ more, Fate.settled.Holds (after (steps ++ more)) i t) ∧
      (Fate.current.Holds b i t → ∀ value,
        (b.board.settle i t value).1 = .current value ∧
          Fate.settled.Holds (b.settle i t value) i t) ∧
      (∀ (j : Fin n) (value : α), ¬ (j = i ∧ Fate.current.Holds b i t) →
        b.board.settle j t value = (.stale, b.board)) ∧
      b.log.countP (Deed.settles t) ≤ 1) ∧
    ∀ r (i : Fin n) t, b.run? r = some (i, t) → ∀ value,
      (IsLatest b.log i t →
        (b.step (.finish r value)).log = b.log ++ [.settled i t (.current value)]) ∧
      (¬ IsLatest b.log i t →
        (b.step (.finish r value)).log = b.log ++ [.settled i t .stale]) := by
  intro b
  have h : Sound b := sound_after steps
  refine ⟨fun i t ht => ⟨h.existsUnique_fate ht, fun hs more => ?_, fun hc value => ?_,
    fun j value hj => ?_, h.once t⟩, fun r i t hr value => ⟨fun hl => ?_, fun hl => ?_⟩⟩
  · obtain ⟨⟨j, v, hs⟩, -⟩ := hs
    refine (sound_after (steps ++ more)).settled_holds ⟨j, v, ?_⟩
    rw [after, List.foldl_append]
    exact (log_foldl b more).subset hs
  · exact h.settle_of_current hc.1 value
  · exact h.settle_of_not_current ht (fun hc => hj ⟨hc.1, h.current_holds hc.2⟩) value
  · rw [log_finish hr, (h.settle_of_current ((h.current i t).mpr hl) value).1]
  · have hnot : b.board.isCurrent i t = false := by rwa [← Bool.not_eq_true, h.current]
    rw [log_finish hr, Board.settle_of_not_current hnot]

/-- Of two runs in a slot the first to return was superseded, and the ticket of another slot does
not settle in theirs. -/
theorem trichotomy_of_superseded :
    let b : Bench 2 Nat := after [.run 0, .begin 1, .run 0]
    .begun 1 ⟨1⟩ ∈ b.log ∧ b.run? 0 = some (0, ⟨0⟩) ∧ ¬ IsLatest b.log 0 ⟨0⟩ ∧
      (b.step (.finish 0 7)).log = b.log ++ [.settled 0 ⟨0⟩ .stale] ∧
      b.board.settle (0 : Fin 2) ⟨1⟩ 7 = (.stale, b.board) := by
  intro b
  have hlatest : ¬ IsLatest b.log 0 ⟨0⟩ := by
    rw [← (sound_after _).current]
    decide
  obtain ⟨hbegun, hrun⟩ := trichotomy (n := 2) (α := Nat) [.run 0, .begin 1, .run 0]
  refine ⟨by decide, rfl, hlatest, (hrun 0 0 ⟨0⟩ rfl 7).2 hlatest, ?_⟩
  exact (hbegun 1 ⟨1⟩ (by decide)).2.2.2.1 0 7 fun hc => absurd hc.1 (by decide)

end Bench

end WorkflowLint

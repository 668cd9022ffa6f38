import WorkflowLint.Proofs.Slot.Fates
import WorkflowLint.Slot.Pauses
import Mathlib.Data.List.Induction
import Mathlib.Data.List.Nodup
/-!
# Pauses under way

A vigil is pauses with the log of what was done with their slots; the messages that have arrived are
claimed by the slot they were scheduled on and their number there. `Sound` says that the board is in
step with the log, that each timer belongs to a present operation and has not run out, and that no
ticket is waited for or sent twice. So a message is sent when its delay has passed, unless its slot
was scheduled again or cancelled before (`hasArrived_iff`), and then once.
-/

namespace WorkflowLint

/-- Pauses and what was done with their slots. -/
structure Vigil (n : Nat) where
  pauses : Pauses := .ofSize n
  log : List (Bench.Deed n Unit) := []

namespace Vigil

/-- What can be done with the pauses on `n` slots. -/
inductive Step (n : Nat) where
  | schedule (i : Fin n) (delay : Nat)
  | cancel (i : Fin n)
  | advance (delay : Nat)
  /-- Claim on slot `i` the message of schedule `k` of slot `home`, counted from zero. -/
  | claim (i home : Fin n) (k : Nat)
  deriving DecidableEq

namespace Step

variable {n : Nat}

def span : Step n → Nat
  | advance delay => delay
  | _ => 0

def schedules (i : Fin n) : Step n → Bool
  | schedule j _ => j = i
  | _ => false

/-- Whether what was scheduled on a slot before does not count any more. -/
def supersedes (i : Fin n) : Step n → Bool
  | schedule j _ => j = i
  | cancel j => j = i
  | _ => false

end Step

variable {n : Nat}

def elapsed : List (Step n) → Nat
  | [] => 0
  | s :: steps => s.span + elapsed steps

/-- How often something is scheduled on a slot during some steps. -/
def scheduled (i : Fin n) (steps : List (Step n)) : Nat := steps.countP (Step.schedules i)

/-- The slot is not scheduled again and not cancelled before a delay has passed. -/
def Undisturbed (i : Fin n) (delay : Nat) (steps : List (Step n)) : Prop :=
  ∀ mid s rest, steps = mid ++ s :: rest → s.supersedes i = true → delay ≤ elapsed mid

/-- The ticket a deed hands out for a slot. -/
def ticketFor? (i : Fin n) : Bench.Deed n Unit → Option Ticket
  | .begun j t => if j = i then some t else none
  | _ => none

/-- The tickets handed out for a slot, in order. -/
def tickets (v : Vigil n) (i : Fin n) : List Ticket := v.log.filterMap (ticketFor? i)

/-- The ticket of a message that has arrived. -/
def arrived? (v : Vigil n) (home : Fin n) (k : Nat) : Option Ticket :=
  (v.tickets home)[k]?.filter v.pauses.sent.contains

/-- Whether the message of a schedule has arrived. -/
def hasArrived (v : Vigil n) (home : Fin n) (k : Nat) : Bool := (v.arrived? home k).isSome

/-- Whether a message counts when it is claimed on a slot. -/
def fires (v : Vigil n) (i home : Fin n) (k : Nat) : Bool :=
  (v.arrived? home k).any fun t => (v.pauses.fire i t).1

def step (v : Vigil n) : Step n → Vigil n
  | .schedule i delay =>
    { pauses := (v.pauses.schedule i delay).2
      log := v.log ++ [.begun i (v.pauses.schedule i delay).1] }
  | .cancel i => { pauses := v.pauses.cancel i, log := v.log ++ [.cancelled i] }
  | .advance delay => { v with pauses := v.pauses.advance delay }
  | .claim i home k =>
    match v.arrived? home k with
    | none => v
    | some t =>
      { pauses := (v.pauses.fire i t).2
        log := v.log ++ [.settled i t (v.pauses.board.settle i t ()).1] }

def run (v : Vigil n) (steps : List (Step n)) : Vigil n := steps.foldl step v

def after (steps : List (Step n)) : Vigil n := run {} steps

/-- The board and what was done with it. -/
def bench (v : Vigil n) : Bench n Unit := { board := v.pauses.board, log := v.log }

end Vigil

/-! ## Pauses -/

namespace Pauses

variable {p : Pauses} {u : Timer} {t : Ticket} {i delay : Nat}

/-- The tickets that are waited for and those that were sent. -/
def issued (p : Pauses) : List Ticket := p.timers.map (·.ticket) ++ p.sent

theorem mem_timers_ring : u ∈ p.ring.timers ↔ u ∈ p.timers ∧ p.now < u.deadline := by
  simp [ring]

theorem mem_sent_ring :
    t ∈ p.ring.sent ↔ t ∈ p.sent ∨ ∃ u ∈ p.timers, u.deadline ≤ p.now ∧ u.ticket = t := by
  rw [ring, List.mem_append, List.mem_reverse, List.mem_map, or_comm]
  simp [and_assoc]

theorem mem_timers_stopCancelled :
    u ∈ p.stopCancelled.timers ↔ u ∈ p.timers ∧ p.board.isCancelled u.ticket = false := by
  simp [stopCancelled]

theorem issued_ring (p : Pauses) : p.ring.issued.Perm p.issued := by
  have hlate : (p.timers.filter fun u => u.deadline ≤ p.now) =
      p.timers.filter fun u => !decide (p.now < u.deadline) :=
    List.filter_congr fun u _ => by rw [← decide_not, decide_eq_decide, Nat.not_lt]
  rw [issued, issued, ring, hlate, ← List.append_assoc]
  refine List.Perm.append_right _ ?_
  refine (List.Perm.append_left _ (List.reverse_perm _)).trans ?_
  rw [← List.map_append]
  exact (List.filter_append_perm _ p.timers).map _

theorem issued_stopCancelled (p : Pauses) : p.stopCancelled.issued.Sublist p.issued :=
  List.Sublist.append (List.Sublist.map _ List.filter_sublist) (List.Sublist.refl _)

theorem not_mem_issued_stopCancelled (hc : p.board.isCancelled t = true) (ht : t ∉ p.sent) :
    t ∉ p.stopCancelled.issued := by
  rw [issued, List.mem_append, List.mem_map]
  rintro (⟨u, hu, rfl⟩ | hsent)
  · rw [(mem_timers_stopCancelled.mp hu).2] at hc
    cases hc
  · exact ht hsent

theorem issued_schedule (p : Pauses) (i delay : Nat) :
    (p.schedule i delay).2.issued.Perm ((p.schedule i delay).1 ::
      { p with board := (p.board.begin i).2 }.stopCancelled.issued) :=
  (issued_ring _).trans (((Timer.perm_insert _ _).map _).append_right _)

theorem mem_timers_schedule :
    u ∈ (p.schedule i delay).2.timers ↔
      (u = ⟨(p.schedule i delay).1, p.now + delay⟩ ∨
        u ∈ p.timers ∧ (p.board.begin i).2.isCancelled u.ticket = false) ∧ p.now < u.deadline := by
  rw [schedule, mem_timers_ring, (Timer.perm_insert _ _).mem_iff, List.mem_cons,
    mem_timers_stopCancelled]
  rfl

theorem sent_subset_ring (p : Pauses) : p.sent ⊆ p.ring.sent := List.subset_append_right _ _

theorem mem_sent_schedule_zero (p : Pauses) (i : Nat) :
    (p.schedule i 0).1 ∈ (p.schedule i 0).2.sent := by
  refine mem_sent_ring.mpr (.inr ⟨⟨(p.schedule i 0).1, p.now⟩, ?_, Nat.le_refl _, rfl⟩)
  exact (Timer.perm_insert _ _).mem_iff.mpr List.mem_cons_self

theorem fire_eq (p : Pauses) (i : Nat) (t : Ticket) :
    p.fire i t = (p.board.isCurrent i t, { p with board := (p.board.settle i t ()).2 }) := by
  rw [fire]
  cases ht : p.board.isCurrent i t with
  | false => rw [Board.settle_of_not_current ht]
  | true => rw [Board.settle_of_current ht]

end Pauses

namespace Vigil

variable {n : Nat} {v : Vigil n} {i j home : Fin n} {k r delay : Nat} {t : Ticket} {u : Timer}
  {s : Step n} {steps post : List (Step n)}

/-! ## Steps -/

theorem elapsed_cons : elapsed (s :: steps) = s.span + elapsed steps := rfl

theorem elapsed_append (pre post : List (Step n)) :
    elapsed (pre ++ post) = elapsed pre + elapsed post := by
  induction pre with
  | nil => exact (Nat.zero_add _).symm
  | cons s pre ih => rw [List.cons_append, elapsed_cons, elapsed_cons, ih, Nat.add_assoc]

theorem run_append (v : Vigil n) (pre post : List (Step n)) :
    v.run (pre ++ post) = (v.run pre).run post := List.foldl_append

theorem after_append (pre post : List (Step n)) : after (pre ++ post) = (after pre).run post :=
  run_append _ _ _

theorem after_snoc (steps : List (Step n)) (s : Step n) :
    after (steps ++ [s]) = (after steps).step s := after_append _ _

theorem undisturbed_cons :
    Undisturbed i r (s :: steps) ↔
      (s.supersedes i = true → r = 0) ∧ Undisturbed i (r - s.span) steps := by
  constructor
  · refine fun h => ⟨fun hs => Nat.le_zero.mp (h [] s steps rfl hs), fun mid s' rest heq hs => ?_⟩
    have hle := h (s :: mid) s' rest (by rw [heq, List.cons_append]) hs
    rw [elapsed_cons] at hle
    omega
  · rintro ⟨hs, hsteps⟩ mid s' rest heq hs'
    cases mid with
    | nil =>
      obtain ⟨rfl, rfl⟩ := List.cons.inj heq
      exact Nat.le_of_eq (hs hs')
    | cons s'' mid =>
      obtain ⟨rfl, rfl⟩ := List.cons.inj heq
      have hle := hsteps mid s' rest rfl hs'
      rw [elapsed_cons]
      omega

theorem step_claim_of_none (ht : v.arrived? home k = none) : v.step (.claim i home k) = v := by
  rw [step, ht]

theorem step_claim_of_some (ht : v.arrived? home k = some t) :
    v.step (.claim i home k) =
      { pauses := { v.pauses with board := (v.pauses.board.settle i t ()).2 }
        log := v.log ++ [.settled i t (v.pauses.board.settle i t ()).1] } := by
  simp only [step, ht, Pauses.fire_eq]

theorem now_step (v : Vigil n) (s : Step n) :
    (v.step s).pauses.now = v.pauses.now + s.span := by
  cases s with
  | schedule | cancel | advance => rfl
  | claim i home k =>
    cases ht : v.arrived? home k with
    | none => rw [step_claim_of_none ht]; rfl
    | some t => rw [step_claim_of_some ht]; rfl

theorem sent_subset_step (v : Vigil n) (s : Step n) :
    v.pauses.sent ⊆ (v.step s).pauses.sent := by
  cases s with
  | schedule i delay =>
    exact Pauses.sent_subset_ring { v.pauses with
      board := (v.pauses.board.begin i).2
      timers := Timer.insert id ⟨(v.pauses.board.begin i).1, v.pauses.now + delay⟩
        { v.pauses with board := (v.pauses.board.begin i).2 }.stopCancelled.timers }
  | cancel i => exact List.Subset.refl _
  | advance delay =>
    exact Pauses.sent_subset_ring { v.pauses with now := v.pauses.now + delay }
  | claim i home k =>
    cases ht : v.arrived? home k with
    | none => rw [step_claim_of_none ht]; exact List.Subset.refl _
    | some t => rw [step_claim_of_some ht]; exact List.Subset.refl _

theorem sent_subset_run (v : Vigil n) (steps : List (Step n)) :
    v.pauses.sent ⊆ (v.run steps).pauses.sent := by
  induction steps generalizing v with
  | nil => exact List.Subset.refl _
  | cons s steps ih => exact List.Subset.trans (sent_subset_step v s) (ih (v.step s))

/-! ## In step with the log -/

/-- A vigil is in step with its log. -/
structure Sound (v : Vigil n) : Prop where
  bench : v.bench.Sound
  running : ∀ u ∈ v.pauses.timers,
    v.pauses.now < u.deadline ∧ ∃ i : Fin n, v.pauses.board.isCurrent i u.ticket = true
  begun : ∀ t ∈ v.pauses.issued, ∃ i : Fin n, .begun i t ∈ v.log
  once : v.pauses.issued.Nodup
  distinct : ∀ i, (v.tickets i).Nodup

theorem Sound.isCancelled_follows (h : Sound v) {b' : Bench n Unit} {d : Bench.Deed n Unit}
    (hd : Bench.Follows v.bench d b') (ht : v.pauses.board.isCurrent i t = true) :
    b'.board.isCancelled t = true ↔ d.GivesUp i := by
  have hlive : v.bench.board.isCancelled t = false := (h.bench.current_holds ht).2
  rw [hd.cancelled, hlive]
  constructor
  · rintro (hc | ⟨j, hgives, hj⟩)
    · cases hc
    · exact h.bench.eq_of_current hj ht ▸ hgives
  · exact fun hgives => .inr ⟨i, hgives, ht⟩

theorem Sound.running_follows (h : Sound v) {b' : Bench n Unit} {d : Bench.Deed n Unit}
    (hd : Bench.Follows v.bench d b') (hgives : ∀ i, d.Clears i → d.GivesUp i)
    (hu : u ∈ v.pauses.timers) (hlive : b'.board.isCancelled u.ticket = false) :
    ∃ i : Fin n, b'.board.isCurrent i u.ticket = true := by
  obtain ⟨-, i, hi⟩ := h.running u hu
  refine ⟨i, (hd.current i _).mpr (.inr ⟨hi, fun hclears => ?_⟩)⟩
  rw [(h.isCancelled_follows hd hi).mpr (hgives i hclears)] at hlive
  cases hlive

theorem Sound.not_mem_sent (h : Sound v) (hu : u ∈ v.pauses.timers) :
    u.ticket ∉ v.pauses.sent :=
  fun ht => (List.nodup_append.mp h.once).2.2 _ (List.mem_map_of_mem hu) _ ht rfl

theorem Sound.new_ticket (h : Sound v) (i : Fin n) (delay : Nat) :
    .begun j (v.pauses.schedule i delay).1 ∉ v.log := fun hj =>
  absurd (h.bench.issued j _ hj)
    (Nat.not_lt.mpr ((Bench.follows_begin h.bench i).fresh i _ rfl).1)

theorem mem_tickets : t ∈ v.tickets i ↔ .begun i t ∈ v.log := by
  rw [tickets, List.mem_filterMap]
  constructor
  · rintro ⟨d, hd, ht⟩
    cases d with
    | begun j t' =>
      obtain ⟨rfl, rfl⟩ : j = i ∧ t' = t := by simpa [ticketFor?] using ht
      exact hd
    | cancelled => cases ht
    | settled => cases ht
  · exact fun ht => ⟨_, ht, if_pos rfl⟩

theorem tickets_schedule (v : Vigil n) (i j : Fin n) (delay : Nat) :
    (v.step (.schedule i delay)).tickets j =
      v.tickets j ++ if i = j then [(v.pauses.schedule i delay).1] else [] := by
  rw [tickets, step, List.filterMap_append, List.filterMap_cons, ticketFor?]
  split_ifs <;> rfl

theorem tickets_step (v : Vigil n) (hs : s.schedules i = false) :
    (v.step s).tickets i = v.tickets i := by
  cases s with
  | schedule j delay =>
    have hj : j ≠ i := of_decide_eq_false hs
    rw [tickets_schedule, if_neg hj, List.append_nil]
  | cancel j => rw [tickets, step, List.filterMap_append]; exact List.append_nil _
  | advance delay => rfl
  | claim j home k =>
    cases ht : v.arrived? home k with
    | none => rw [step_claim_of_none ht]
    | some t =>
      rw [step_claim_of_some ht, tickets, List.filterMap_append]
      exact List.append_nil _

theorem Sound.schedule (h : Sound v) (i : Fin n) (delay : Nat) :
    Sound (v.step (.schedule i delay)) := by
  have hd := Bench.follows_begin h.bench i
  have hperm := Pauses.issued_schedule v.pauses i delay
  have hl := Pauses.issued_stopCancelled { v.pauses with board := (v.pauses.board.begin i).2 }
  refine ⟨h.bench.follows hd, fun u hu => ?_, fun t ht => ?_, ?_, fun j => ?_⟩
  · obtain ⟨rfl | ⟨hold, hlive⟩, hnow⟩ := Pauses.mem_timers_schedule.mp hu
    · exact ⟨hnow, i, (hd.current i _).mpr (.inl rfl)⟩
    · exact ⟨hnow, h.running_follows hd (fun _ hc => hc) hold hlive⟩
  · rcases List.mem_cons.mp (hperm.mem_iff.mp ht) with rfl | hold
    · exact ⟨i, List.mem_append_right _ List.mem_cons_self⟩
    · obtain ⟨j, hj⟩ := h.begun t (hl.subset hold)
      exact ⟨j, List.mem_append_left _ hj⟩
  · refine hperm.nodup_iff.mpr (List.nodup_cons.mpr ⟨fun hnew => ?_, h.once.sublist hl⟩)
    obtain ⟨j, hj⟩ := h.begun _ (hl.subset hnew)
    exact h.new_ticket i delay hj
  · rw [tickets_schedule]
    split_ifs with hij
    · refine List.nodup_append.mpr ⟨h.distinct j, List.nodup_singleton _, fun t ht t' ht' => ?_⟩
      rw [List.mem_singleton.mp ht']
      rintro rfl
      exact h.new_ticket i delay (mem_tickets.mp ht)
    · rw [List.append_nil]
      exact h.distinct j

theorem Sound.cancel (h : Sound v) (i : Fin n) : Sound (v.step (.cancel i)) := by
  have hd := Bench.follows_cancel h.bench i
  have hsub := Pauses.issued_stopCancelled { v.pauses with board := v.pauses.board.cancel i }
  refine ⟨h.bench.follows hd, fun u hu => ?_, fun t ht => ?_, h.once.sublist hsub, fun j => ?_⟩
  · obtain ⟨hold, hlive⟩ := Pauses.mem_timers_stopCancelled.mp hu
    exact ⟨(h.running u hold).1, h.running_follows hd (fun _ hc => hc) hold hlive⟩
  · obtain ⟨j, hj⟩ := h.begun t (hsub.subset ht)
    exact ⟨j, List.mem_append_left _ hj⟩
  · rw [tickets_step v rfl]
    exact h.distinct j

theorem Sound.advance (h : Sound v) (delay : Nat) : Sound (v.step (.advance delay)) := by
  have hperm := Pauses.issued_ring { v.pauses with now := v.pauses.now + delay }
  refine ⟨h.bench, fun u hu => ?_, fun t ht => h.begun t (hperm.mem_iff.mp ht),
    hperm.nodup_iff.mpr h.once, h.distinct⟩
  obtain ⟨hold, hnow⟩ := Pauses.mem_timers_ring.mp hu
  exact ⟨hnow, (h.running u hold).2⟩

theorem arrived?_eq_some_iff :
    v.arrived? home k = some t ↔ (v.tickets home)[k]? = some t ∧ t ∈ v.pauses.sent := by
  simp [arrived?, Option.filter_eq_some_iff]

theorem eq_of_isCurrent {t' : Ticket} (ht : v.pauses.board.isCurrent i t = true)
    (ht' : v.pauses.board.isCurrent i t' = true) : t = t' :=
  Option.some.inj ((Board.isCurrent_iff.mp ht).symm.trans (Board.isCurrent_iff.mp ht'))

theorem Sound.claim (h : Sound v) (i home : Fin n) (k : Nat) :
    Sound (v.step (.claim i home k)) := by
  cases ht : v.arrived? home k with
  | none => rw [step_claim_of_none ht]; exact h
  | some t =>
    have htickets : ∀ j, (v.step (.claim i home k)).tickets j = v.tickets j :=
      fun j => tickets_step v rfl
    rw [step_claim_of_some ht] at htickets ⊢
    have hd := Bench.follows_settle h.bench i t ()
    refine ⟨h.bench.follows hd, fun u hu => ?_, fun t' ht' => ?_, h.once,
      fun j => htickets j ▸ h.distinct j⟩
    · obtain ⟨hnow, j, hj⟩ := h.running u hu
      refine ⟨hnow, j, (hd.current j _).mpr (.inr ⟨hj, fun hclears => ?_⟩)⟩
      obtain hgives | ⟨t', w, heq⟩ := hclears.cases
      · exact hgives.elim
      · -- what was sent is not waited for any more
        have hsettled := hd.settled _ _ _ heq
        obtain ⟨rfl, rfl, -⟩ := Bench.Deed.settled.inj heq
        obtain rfl := eq_of_isCurrent hsettled hj
        exact h.not_mem_sent hu (arrived?_eq_some_iff.mp ht).2
    · obtain ⟨j, hj⟩ := h.begun t' ht'
      exact ⟨j, List.mem_append_left _ hj⟩

theorem Sound.step (h : Sound v) (s : Step n) : Sound (v.step s) := by
  cases s with
  | schedule i delay => exact h.schedule i delay
  | cancel i => exact h.cancel i
  | advance delay => exact h.advance delay
  | claim i home k => exact h.claim i home k

theorem sound_start : Sound ({} : Vigil n) where
  bench := Bench.sound_start
  running _ hu := absurd hu List.not_mem_nil
  begun _ ht := absurd ht List.not_mem_nil
  once := List.nodup_nil
  distinct _ := List.nodup_nil

theorem Sound.run (h : Sound v) (steps : List (Step n)) : Sound (v.run steps) := by
  induction steps generalizing v with
  | nil => exact h
  | cons s steps ih => exact ih (h.step s)

theorem sound_after (steps : List (Step n)) : Sound (after steps) := sound_start.run steps

/-! ## What arrives -/

theorem supersedes_schedule {delay : Nat} :
    (Step.schedule j delay).supersedes i = true ↔ j = i := decide_eq_true_iff

theorem supersedes_cancel : (Step.cancel j).supersedes i = true ↔ j = i := decide_eq_true_iff

theorem Sound.isCurrent_of_timer (h : Sound v) (hu : u ∈ v.pauses.timers)
    (hbegun : .begun i u.ticket ∈ v.log) : v.pauses.board.isCurrent i u.ticket = true := by
  obtain ⟨-, j, hj⟩ := h.running u hu
  obtain rfl := h.bench.home j i _ (h.bench.begun_of_current hj) hbegun
  exact hj

theorem Sound.timer_step (h : Sound v) (hu : u ∈ v.pauses.timers)
    (hbegun : .begun i u.ticket ∈ v.log) (hs : s.supersedes i = false)
    (hnow : v.pauses.now + s.span < u.deadline) : u ∈ (v.step s).pauses.timers := by
  have hi := h.isCurrent_of_timer hu hbegun
  rw [← Bool.not_eq_true] at hs
  cases s with
  | schedule j delay =>
    have hd := Bench.follows_begin h.bench j
    refine Pauses.mem_timers_schedule.mpr ⟨.inr ⟨hu, ?_⟩, hnow⟩
    rw [← Bool.not_eq_true]
    exact fun hc => hs (supersedes_schedule.mpr ((h.isCancelled_follows hd hi).mp hc))
  | cancel j =>
    have hd := Bench.follows_cancel h.bench j
    refine Pauses.mem_timers_stopCancelled.mpr ⟨hu, ?_⟩
    rw [← Bool.not_eq_true]
    exact fun hc => hs (supersedes_cancel.mpr ((h.isCancelled_follows hd hi).mp hc))
  | advance delay => exact Pauses.mem_timers_ring.mpr ⟨hu, hnow⟩
  | claim j home k =>
    cases ht : v.arrived? home k with
    | none => rw [step_claim_of_none ht]; exact hu
    | some t => rw [step_claim_of_some ht]; exact hu

theorem Sound.sent_step (h : Sound v) (hu : u ∈ v.pauses.timers)
    (hnow : u.deadline ≤ v.pauses.now + s.span) : u.ticket ∈ (v.step s).pauses.sent := by
  have hlate := (h.running u hu).1
  cases s with
  | advance delay => exact Pauses.mem_sent_ring.mpr (.inr ⟨u, hu, hnow, rfl⟩)
  | schedule | cancel | claim => exact absurd hnow (Nat.not_le.mpr hlate)

theorem Sound.not_issued_of_supersedes (h : Sound v) (hu : u ∈ v.pauses.timers)
    (hbegun : .begun i u.ticket ∈ v.log) (hs : s.supersedes i = true) :
    u.ticket ∉ (v.step s).pauses.issued := by
  have hi := h.isCurrent_of_timer hu hbegun
  have hsent := h.not_mem_sent hu
  cases s with
  | schedule j delay =>
    obtain rfl := supersedes_schedule.mp hs
    have hd := Bench.follows_begin h.bench j
    rw [Vigil.step, (Pauses.issued_schedule _ _ _).mem_iff, List.mem_cons, not_or]
    refine ⟨fun hnew => h.new_ticket j delay (hnew ▸ hbegun), ?_⟩
    exact Pauses.not_mem_issued_stopCancelled ((h.isCancelled_follows hd hi).mpr rfl) hsent
  | cancel j =>
    obtain rfl := supersedes_cancel.mp hs
    have hd := Bench.follows_cancel h.bench j
    exact Pauses.not_mem_issued_stopCancelled ((h.isCancelled_follows hd hi).mpr rfl) hsent
  | advance | claim => cases hs

theorem Sound.issued_step (h : Sound v) (hbegun : .begun i t ∈ v.log)
    (ht : t ∈ (v.step s).pauses.issued) : t ∈ v.pauses.issued := by
  cases s with
  | schedule j delay =>
    rw [Vigil.step, (Pauses.issued_schedule _ _ _).mem_iff, List.mem_cons] at ht
    rcases ht with rfl | ht
    · exact absurd hbegun (h.new_ticket j delay)
    · exact (Pauses.issued_stopCancelled
        { v.pauses with board := (v.pauses.board.begin j).2 }).subset ht
  | cancel j =>
    exact (Pauses.issued_stopCancelled
      { v.pauses with board := v.pauses.board.cancel j }).subset ht
  | advance delay =>
    exact (Pauses.issued_ring { v.pauses with now := v.pauses.now + delay }).mem_iff.mp ht
  | claim j home k =>
    cases harrived : v.arrived? home k with
    | none => rwa [step_claim_of_none harrived] at ht
    | some t' => rwa [step_claim_of_some harrived] at ht

theorem log_step (v : Vigil n) (s : Step n) : v.log <+: (v.step s).log := by
  cases s with
  | schedule | cancel => exact List.prefix_append _ _
  | advance => exact List.prefix_refl _
  | claim i home k =>
    cases ht : v.arrived? home k with
    | none => simp only [step_claim_of_none ht, List.prefix_rfl]
    | some t => rw [step_claim_of_some ht]; exact List.prefix_append _ _

theorem log_run (v : Vigil n) (steps : List (Step n)) : v.log <+: (v.run steps).log := by
  induction steps generalizing v with
  | nil => exact List.prefix_refl _
  | cons s steps ih => exact (log_step v s).trans (ih (v.step s))

theorem Sound.issued_run (h : Sound v) (hbegun : .begun i t ∈ v.log)
    (ht : t ∈ (v.run steps).pauses.issued) : t ∈ v.pauses.issued := by
  induction steps generalizing v with
  | nil => exact ht
  | cons s steps ih =>
    exact h.issued_step hbegun (ih (h.step s) ((log_step v s).subset hbegun) ht)

theorem Sound.timer_run (h : Sound v) (hu : u ∈ v.pauses.timers)
    (hbegun : .begun i u.ticket ∈ v.log) (hsteps : ∀ s ∈ steps, s.supersedes i = false)
    (hnow : v.pauses.now + elapsed steps < u.deadline) : u ∈ (v.run steps).pauses.timers := by
  induction steps generalizing v with
  | nil => exact hu
  | cons s steps ih =>
    rw [elapsed_cons, ← Nat.add_assoc] at hnow
    have htimer := h.timer_step hu hbegun (hsteps s List.mem_cons_self) (by omega)
    refine ih (h.step s) htimer ((log_step v s).subset hbegun) ?_ ?_
    · exact fun s' hs' => hsteps s' (List.mem_cons_of_mem _ hs')
    · rwa [now_step]

/-- While a timer runs, its ticket is sent iff the delay that is left passes and the slot is not
disturbed before. -/
theorem Sound.mem_sent_run_iff (h : Sound v) (hu : ⟨t, v.pauses.now + r⟩ ∈ v.pauses.timers)
    (hbegun : .begun i t ∈ v.log) :
    t ∈ (v.run steps).pauses.sent ↔ r ≤ elapsed steps ∧ Undisturbed i r steps := by
  have hr : 0 < r := by
    have hlate : v.pauses.now < v.pauses.now + r := (h.running _ hu).1
    omega
  induction steps generalizing v r with
  | nil => exact iff_of_false (h.not_mem_sent hu) fun hle => absurd hle.1 (Nat.not_le.mpr hr)
  | cons s steps ih =>
    have hbegun' := (log_step v s).subset hbegun
    rw [undisturbed_cons, elapsed_cons]
    cases hs : s.supersedes i with
    | true =>
      refine iff_of_false (fun hsent => ?_) fun hle => Nat.ne_of_gt hr (hle.2.1 rfl)
      exact h.not_issued_of_supersedes hu hbegun hs
        ((h.step s).issued_run hbegun' (List.mem_append_right _ hsent))
    | false =>
      obtain hwait | hlate := Nat.lt_or_ge s.span r
      · have htimer := h.timer_step hu hbegun hs (Nat.add_lt_add_left hwait _)
        have hnow : v.pauses.now + r = (v.step s).pauses.now + (r - s.span) := by
          rw [now_step]
          omega
        rw [hnow] at htimer
        have hrest := ih (h.step s) htimer hbegun' (by omega)
        refine hrest.trans ⟨fun hle => ⟨?_, nofun, hle.2⟩, fun hle => ⟨?_, hle.2.2⟩⟩
        · exact Nat.sub_le_iff_le_add'.mp hle.1
        · exact Nat.sub_le_iff_le_add'.mpr hle.1
      · have hsent := h.sent_step hu (Nat.add_le_add_left hlate _)
        refine iff_of_true (sent_subset_run _ steps hsent) ⟨by omega, nofun, ?_⟩
        intro mid s' rest _ _
        omega

/-! ## Schedules by number -/

theorem length_tickets (i : Fin n) (steps : List (Step n)) :
    ((after steps).tickets i).length = scheduled i steps := by
  induction steps using List.reverseRecOn with
  | nil => rfl
  | append_singleton steps s ih =>
    rw [after_snoc, scheduled, List.countP_append, List.countP_singleton, ← scheduled, ← ih]
    cases s with
    | schedule j delay =>
      rw [tickets_schedule, List.length_append, Step.schedules]
      split_ifs <;> simp_all
    | cancel | advance | claim => rw [tickets_step _ rfl]; rfl

theorem tickets_run (v : Vigil n) (i : Fin n) (steps : List (Step n)) :
    v.tickets i <+: (v.run steps).tickets i := (log_run v steps).filterMap _

theorem ticket_after (pre : List (Step n)) (i : Fin n) (delay : Nat) (post : List (Step n)) :
    ((after (pre ++ .schedule i delay :: post)).tickets i)[scheduled i pre]? =
      some ((after pre).pauses.schedule i delay).1 := by
  obtain ⟨l, hl⟩ := tickets_run ((after pre).step (.schedule i delay)) i post
  rw [after_append, run, List.foldl_cons, ← run, ← hl, tickets_schedule, if_pos rfl,
    ← length_tickets i pre]
  simp

theorem hasArrived_eq_true_iff :
    v.hasArrived home k = true ↔
      ∃ t, (v.tickets home)[k]? = some t ∧ t ∈ v.pauses.sent := by
  rw [hasArrived, Option.isSome_iff_exists]
  exact exists_congr fun t => arrived?_eq_some_iff

theorem mem_timers_after (pre : List (Step n)) (i : Fin n) (hdelay : 0 < delay) :
    ⟨((after pre).pauses.schedule i delay).1, (after pre).pauses.now + delay⟩ ∈
      ((after pre).step (.schedule i delay)).pauses.timers :=
  Pauses.mem_timers_schedule.mpr ⟨.inl rfl, Nat.lt_add_of_pos_right hdelay⟩

theorem begun_schedule (v : Vigil n) (i : Fin n) (delay : Nat) :
    .begun i (v.pauses.schedule i delay).1 ∈ (v.step (.schedule i delay)).log :=
  List.mem_append_right _ List.mem_cons_self

/-- A message arrives once its delay has passed, unless its slot was disturbed before. -/
theorem hasArrived_iff (pre : List (Step n)) (i : Fin n) (delay : Nat) (post : List (Step n)) :
    (after (pre ++ .schedule i delay :: post)).hasArrived i (scheduled i pre) = true ↔
      delay ≤ elapsed post ∧ Undisturbed i delay post := by
  have h := (sound_after pre).schedule i delay
  rw [hasArrived_eq_true_iff, ticket_after]
  simp only [Option.some.injEq, exists_eq_left']
  rw [after_append]
  cases Nat.eq_zero_or_pos delay with
  | inl hzero =>
    subst hzero
    refine iff_of_true (sent_subset_run _ post (Pauses.mem_sent_schedule_zero _ i)) ?_
    exact ⟨Nat.zero_le _, fun mid s rest _ _ => Nat.zero_le _⟩
  | inr hpos =>
    exact h.mem_sent_run_iff (mem_timers_after pre i hpos) (begun_schedule _ i delay)

theorem now_after (steps : List (Step n)) : (after steps).pauses.now = elapsed steps := by
  induction steps using List.reverseRecOn with
  | nil => rfl
  | append_singleton steps s ih =>
    rw [after_snoc, now_step, ih, elapsed_append]
    rfl

theorem exists_timer (pre : List (Step n)) (hpost : ∀ s ∈ post, s.supersedes i = false)
    (hdelay : elapsed post < delay) :
    ∃ u ∈ (after (pre ++ .schedule i delay :: post)).pauses.timers,
      u.deadline = elapsed pre + delay := by
  have h := (sound_after pre).schedule i delay
  have hpos := Nat.lt_of_le_of_lt (Nat.zero_le _) hdelay
  rw [after_append]
  exact ⟨_, h.timer_run (mem_timers_after pre i hpos) (begun_schedule _ i delay) hpost
    (Nat.add_lt_add_left hdelay _), congrArg (· + delay) (now_after pre)⟩

theorem exists_schedule (hk : k < scheduled i steps) :
    ∃ pre delay post, steps = pre ++ .schedule i delay :: post ∧ scheduled i pre = k := by
  induction steps using List.reverseRecOn with
  | nil => exact absurd hk (Nat.not_lt_zero k)
  | append_singleton steps s ih =>
    obtain hold | hnew := Nat.lt_or_ge k (scheduled i steps)
    · obtain ⟨pre, delay, post, rfl, hpre⟩ := ih hold
      exact ⟨pre, delay, post ++ [s], by simp, hpre⟩
    · rw [scheduled, List.countP_append, ← scheduled, List.countP_singleton] at hk
      cases s with
      | schedule j delay =>
        split_ifs at hk with hj
        · obtain rfl : j = i := of_decide_eq_true hj
          exact ⟨steps, delay, [], rfl, by omega⟩
        · omega
      | cancel | advance | claim => exact absurd hk (Nat.not_lt.mpr hnew)

theorem lt_scheduled_of_hasArrived (h : (after steps).hasArrived i k = true) :
    k < scheduled i steps := by
  obtain ⟨t, ht, -⟩ := hasArrived_eq_true_iff.mp h
  rw [← length_tickets]
  exact (List.getElem?_eq_some_iff.mp ht).1

end Vigil
end WorkflowLint

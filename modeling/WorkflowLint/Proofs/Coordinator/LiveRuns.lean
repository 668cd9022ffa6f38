import WorkflowLint.Proofs.Coordinator.LatestRun
import WorkflowLint.Proofs.Coordinator.Slots
/-!
# What is under way is what is in the slots

A run is live when it was begun, has not reported and was not cancelled. The live runs of a document
are those whose ticket is in its slot, so there is at most one, and none when the document is not
open; it is the same with the timers of its pauses. The phase of a document says `running` exactly
while it has a run, and after the end nothing is live (`Life.live_iff_in_slot`).

The slots are in step with the file of the document (`Life.sound`). A ticket is that of one run
(`Desk.Numbered`), so a ticket that is open by the marks is that of a live run.
-/

namespace WorkflowLint

namespace History

/-- A run was begun, has not reported and was not cancelled. -/
def IsLive (h : History) (run : Run) : Prop :=
  .did (.start run) ∈ h ∧ run ∉ h.ended run.url ∧ .did (.cancelRun run.ticket) ∉ h

/-- The timer of a pause was started, has not run out and was not stopped. -/
def IsTicking (h : History) (u : Url) (t : Ticket) : Prop :=
  (u, t) ∈ h.filterMap Entry.timer? ∧ .heard (.elapsed u t) ∉ h ∧ .did (.stopTimer t) ∉ h

instance (h : History) (run : Run) : Decidable (h.IsLive run) :=
  inferInstanceAs (Decidable (_ ∧ _ ∧ _))

instance (h : History) (u : Url) (t : Ticket) : Decidable (h.IsTicking u t) :=
  inferInstanceAs (Decidable (_ ∧ _ ∧ _))

variable {u : Url} {h : History} {run : Run} {t : Ticket}

theorem mem_ended :
    run ∈ h.ended u ↔ run.url = u ∧ ∃ result, .heard (.finished run result) ∈ h := by
  constructor
  · intro hmem
    obtain ⟨e, he, hrun⟩ := List.mem_filterMap.mp hmem
    unfold Entry.ended? at hrun
    split at hrun
    · split at hrun <;> cases hrun
      exact ⟨‹_›, _, he⟩
    · cases hrun
  · rintro ⟨rfl, result, he⟩
    exact mem_ended_of_mem he

/-- A run is live when its ticket is open on the file of its document. -/
theorem isLive_iff_isOpen (hrun : .did (.start run) ∈ h)
    (hunique : ∀ other ∈ h.ended run.url, other.ticket = run.ticket → other = run) :
    h.IsLive run ↔ (h.file run.url).runMarks.IsOpen run.ticket := by
  have hended : (.ended, run.ticket) ∈ (h.file run.url).runMarks ↔ run ∈ h.ended run.url := by
    rw [ended_mem_runMarks, mem_ended]
    constructor
    · -- a report with the ticket is of this run
      rintro ⟨other, result, hother, hticket⟩
      obtain ⟨hheard, hurl⟩ := finished_mem_file.mp hother
      obtain rfl := hunique other (mem_ended.mpr ⟨hurl, result, hheard⟩) hticket
      exact ⟨rfl, result, hheard⟩
    · rintro ⟨-, result, hresult⟩
      exact ⟨run, result, finished_mem_file.mpr ⟨hresult, rfl⟩, rfl⟩
  have hbegun : (.begun, run.ticket) ∈ (h.file run.url).runMarks :=
    begun_mem_runMarks.mpr ⟨run, start_mem_file.mpr ⟨hrun, rfl⟩, rfl⟩
  rw [Marks.IsOpen, hended, stopped_mem_runMarks, cancelRun_mem_file, IsLive,
    and_iff_left (mem_tickets_of_start hrun)]
  exact and_congr_left fun _ => iff_of_true hrun hbegun

theorem isTicking_iff_isOpen : h.IsTicking u t ↔ (h.file u).pauseMarks.IsOpen t := by
  rw [Marks.IsOpen, begun_mem_pauseMarks, ended_mem_pauseMarks, stopped_mem_pauseMarks,
    stopTimer_mem_file, IsTicking]
  constructor
  · rintro ⟨hbegun, hended, hstopped⟩
    obtain ⟨delay, hdelay⟩ := exists_of_mem_timers hbegun
    refine ⟨⟨u, delay, startTimer_mem_file.mpr ⟨hdelay, rfl⟩⟩, ?_, fun hs => hstopped hs.1⟩
    rintro ⟨w, hw⟩
    obtain ⟨hheard, rfl⟩ := elapsed_mem_file.mp hw
    exact hended hheard
  · rintro ⟨⟨w, delay, hw⟩, hended, hstopped⟩
    obtain ⟨hdid, rfl⟩ := startTimer_mem_file.mp hw
    have hbegun := mem_timers hdid
    refine ⟨hbegun, fun he => hended ⟨w, elapsed_mem_file.mpr ⟨he, rfl⟩⟩, fun hs => ?_⟩
    exact hstopped ⟨hs, mem_tickets_of_timer hbegun⟩

end History

namespace Desk

theorem stopped_step {u : Url} {k k' : Desk}
    (hk : .heard (.command .shutdown) ∈ k.history → k.stopped = true) (hs : Step u k k')
    (hend : .heard (.command .shutdown) ∈ k'.history) : k'.stopped = true := by
  cases hs with
  | stopped => rfl
  | deaf hstop => exact hstop
  | away _ hes =>
    exact hk ((List.mem_append.mp hend).resolve_right fun he => hes _ he trivial)
  | retired _ _ _ hes =>
    refine hk ((List.mem_append.mp hend).resolve_right fun he => ?_)
    exact hes (.heard (.command .shutdown)) (by simpa using he) trivial
  | ended _ _ _ _ hes =>
    refine hk ((List.mem_append.mp hend).resolve_right fun he => ?_)
    exact hes (.heard (.command .shutdown)) (by simpa using he) trivial
  | _ => exact hk (by simpa using hend)

theorem shutdown_step {u : Url} {k k' : Desk}
    (hk : k.stopped = true → .heard (.command .shutdown) ∈ k.history) (hs : Step u k k')
    (hstop : k'.stopped = true) : .heard (.command .shutdown) ∈ k'.history := by
  cases hs with
  | stopped => exact List.mem_append_right _ List.mem_cons_self
  | _ => exact List.mem_append_left _ (hk hstop)

end Desk

theorem Coordinator.shutdown_not_mem_takeUp (ds : List Document) (c : Coordinator) :
    .heard (.command .shutdown) ∉ c.takeUp ds := by
  induction ds generalizing c with
  | nil => simp [takeUp]
  | cons d ds ih => simp [takeUp, ih]

theorem Coordinator.running_handle {c : Coordinator} {h : History} {m : Message}
    (hs : c.stopped = false) (hno : .heard (.command .shutdown) ∉ h) (hm : h.Admits m)
    (hne : m ≠ .command .shutdown) :
    (c.handle m).1.stopped = false ∧
      .heard (.command .shutdown) ∉ h ++ .heard m :: (c.handle m).2.map .did := by
  have hno' : .heard (.command .shutdown) ∉ h ++ .heard m :: (c.handle m).2.map .did := by
    rw [List.mem_append, not_or]
    refine ⟨hno, ?_⟩
    simpa using hne.symm
  have hstops : ∀ k : Desk, Desk.Steps default (c.desk default h) k → k.stopped = true →
      .heard (.command .shutdown) ∈ k.history := by
    intro k hk
    induction hk with
    | refl =>
      intro hstop
      rw [show (c.desk default h).stopped = false from hs] at hstop
      cases hstop
    | tail _ hstep ih => exact Desk.shutdown_step ih hstep
  refine ⟨?_, hno'⟩
  cases hstop : (c.handle m).1.stopped with
  | false => rfl
  | true => exact absurd (hstops _ (Desk.steps_handle hm c) hstop) hno'

namespace Life

variable {start : Launch} {c : Coordinator} {h : History} {u : Url} {run : Run} {t : Ticket}

theorem stopped_of_shutdown (hl : Life start c h) (hend : .heard (.command .shutdown) ∈ h) :
    c.stopped = true :=
  hl.desk_induction (u := default)
    (P := fun k => .heard (.command .shutdown) ∈ k.history → k.stopped = true)
    (fun he => absurd he List.not_mem_nil) (fun _ _ => Desk.stopped_step) hend

theorem shutdown_of_stopped (hl : Life start c h) (hstop : c.stopped = true) :
    .heard (.command .shutdown) ∈ h :=
  hl.desk_induction (u := default)
    (P := fun k => k.stopped = true → .heard (.command .shutdown) ∈ k.history)
    (fun hs => absurd hs Bool.noConfusion) (fun _ _ => Desk.shutdown_step) hstop

theorem numbered (hl : Life start c h) (u : Url) : Desk.Numbered u (c.desk u h) :=
  (hl.desk_induction (Desk.tracked_blank start.settings u) fun _ _ => Desk.tracked_step).numbered

theorem eq_of_ticket (hl : Life start c h) {other : Run} (hrun : .did (.start run) ∈ h)
    (hother : .did (.start other) ∈ h) (hurl : other.url = run.url)
    (hticket : other.ticket = run.ticket) : other = run :=
  (hl.numbered run.url).unique other (History.mem_begun.mpr ⟨hother, hurl⟩) run
    (History.mem_begun.mpr ⟨hrun, rfl⟩) hticket

theorem isLive_iff (hl : Life start c h) :
    h.IsLive run ↔ .did (.start run) ∈ h ∧ (c.clerk run.url).run.occupant = some run.ticket := by
  have hlive : .did (.start run) ∈ h →
      (h.IsLive run ↔ (c.clerk run.url).run.occupant = some run.ticket) := by
    intro hrun
    rw [History.isLive_iff_isOpen hrun, (hl.sound run.url).runs.isOpen_iff]
    intro other hother hticket
    obtain ⟨hbegun, hurl⟩ := History.mem_begun.mp ((hl.numbered run.url).heard other hother)
    exact hl.eq_of_ticket hrun hbegun hurl hticket
  exact ⟨fun hrun => ⟨hrun.1, (hlive hrun.1).mp hrun⟩, fun hrun => (hlive hrun.1).mpr hrun.2⟩

theorem isTicking_iff (hl : Life start c h) :
    h.IsTicking u t ↔ (c.clerk u).pause.occupant = some t := by
  rw [History.isTicking_iff_isOpen, (hl.sound u).pauses.isOpen_iff]

end Life

/-- What is under way for a document is what its slots hold. -/
structure Coordinator.InStep (c : Coordinator) (h : History) (u : Url) : Prop where
  phase : ∀ d, c.documents.get? u = some d → (d.phase = .running ↔ d.run.isOccupied = true)
  /-- Of the runs of the document that were begun, the one in the slot is live, and no other. -/
  runs : ∀ run, run.url = u →
    (h.IsLive run ↔ .did (.start run) ∈ h ∧
      ∃ d, c.documents.get? u = some d ∧ d.run.occupant = some run.ticket)
  /-- There is a run in the slot if the slot is taken. -/
  occupied : ∀ d t, c.documents.get? u = some d → d.run.occupant = some t →
    ∃ run, run.url = u ∧ run.ticket = t ∧ h.IsLive run
  atMostOne : ∀ run other, run.url = u → other.url = u → h.IsLive run → h.IsLive other → run = other
  timers : ∀ t, h.IsTicking u t ↔ ∃ d, c.documents.get? u = some d ∧ d.pause.occupant = some t

/-- All that was begun has reported or was given up. -/
structure History.IsOver (h : History) : Prop where
  runs : ∀ run, .did (.start run) ∈ h → run ∉ h.ended run.url → .did (.cancelRun run.ticket) ∈ h
  timers : ∀ u t, (u, t) ∈ h.filterMap Entry.timer? → .heard (.elapsed u t) ∉ h →
    .did (.stopTimer t) ∈ h

namespace Life

variable {start : Launch} {c : Coordinator} {h : History} {u : Url} {run : Run} {t : Ticket}

theorem occupant_run_iff :
    (c.clerk u).run.occupant = some t ↔
      ∃ d, c.documents.get? u = some d ∧ d.run.occupant = some t := by
  show ((c.documents.get? u).elim ({} : Slot) (·.run)).occupant = some t ↔ _
  cases c.documents.get? u <;> simp

theorem occupant_pause_iff :
    (c.clerk u).pause.occupant = some t ↔
      ∃ d, c.documents.get? u = some d ∧ d.pause.occupant = some t := by
  show ((c.documents.get? u).elim ({} : Slot) (·.pause)).occupant = some t ↔ _
  cases c.documents.get? u <;> simp

theorem inStep (hl : Life start c h) (u : Url) : c.InStep h u where
  phase := (hl.sound u).phase
  runs run hu := by
    subst hu
    rw [hl.isLive_iff, occupant_run_iff]
  occupied d t hd ht := by
    have hopen := ((hl.sound u).runs.isOpen_iff t).mpr (occupant_run_iff.mpr ⟨d, hd, ht⟩)
    obtain ⟨run, hrun, rfl⟩ := History.begun_mem_runMarks.mp hopen.1
    obtain ⟨hbegun, rfl⟩ := History.start_mem_file.mp hrun
    exact ⟨run, rfl, rfl, hl.isLive_iff.mpr ⟨hbegun, occupant_run_iff.mpr ⟨d, hd, ht⟩⟩⟩
  atMostOne run other hrun hother hlive hlive' := by
    subst hrun
    have hslot := (hl.isLive_iff.mp hlive).2
    have hslot' := (hl.isLive_iff.mp hlive').2
    rw [hother] at hslot'
    exact (hl.eq_of_ticket hlive.1 hlive'.1 hother (Option.some.inj (hslot'.symm.trans hslot))).symm
  timers t := by rw [hl.isTicking_iff, occupant_pause_iff]

theorem isOver (hl : Life start c h) (hend : .heard (.command .shutdown) ∈ h) : h.IsOver := by
  have hnone : ∀ u, (c.clerk u).document = none := fun u =>
    (hl.sound u).shut (hl.stopped_of_shutdown hend)
  constructor
  · intro run hrun hended
    by_contra hcancel
    have hslot := (hl.isLive_iff.mp ⟨hrun, hended, hcancel⟩).2
    rw [Clerk.run, hnone] at hslot
    cases hslot
  · intro u t htimer helapsed
    by_contra hstop
    have hslot := hl.isTicking_iff.mp ⟨htimer, helapsed, hstop⟩
    rw [Clerk.pause, hnone] at hslot
    cases hslot

/-- **What is live is what is in the slots.** At any time a document has at most one live run, which
is the one in its slot, and at most one timer; after the end, all is given up and nothing is
heard. -/
theorem live_iff_in_slot (hl : Life start c h) :
    (∀ u, c.InStep h u) ∧
      (.heard (.command .shutdown) ∈ h → h.IsOver ∧ ∀ m, c.handle m = (c, [])) :=
  ⟨hl.inStep, fun hend =>
    ⟨hl.isOver hend, Coordinator.handle_of_stopped (hl.stopped_of_shutdown hend)⟩⟩

/-- An edit is pending and the first run is not over when the end comes: both are given up. -/
theorem live_iff_in_slot_of_edit :
    let x := Launch.workflow.after [.command (.changed Launch.workflowUrl 2 "on: pull_request\n")]
    let y := Launch.workflow.after
      [.command (.changed Launch.workflowUrl 2 "on: pull_request\n"), .command .shutdown]
    (x.2.IsLive (Launch.workflowRun 0) ∧ x.2.IsTicking Launch.workflowUrl ⟨1⟩ ∧
      ∃ d, x.1.documents.get? Launch.workflowUrl = some d ∧ d.run.occupant = some ⟨0⟩) ∧
    .did (.cancelRun ⟨0⟩) ∈ y.2 ∧ .did (.stopTimer ⟨1⟩) ∈ y.2 ∧
      ∀ m, y.1.handle m = (y.1, []) := by
  intro x y
  have hx := live_iff_in_slot (Life.after Launch.workflow
    [.command (.changed Launch.workflowUrl 2 "on: pull_request\n")] (by decide +kernel))
  have hy := live_iff_in_slot (Life.after Launch.workflow
    [.command (.changed Launch.workflowUrl 2 "on: pull_request\n"), .command .shutdown]
    (by decide +kernel))
  have hlive : x.2.IsLive (Launch.workflowRun 0) := by decide +kernel
  obtain ⟨hover, hdeaf⟩ := hy.2 (by decide +kernel)
  refine ⟨⟨hlive, by decide +kernel, (((hx.1 _).runs _ rfl).mp hlive).2⟩, ?_, ?_, hdeaf⟩
  · exact hover.runs (Launch.workflowRun 0) (by decide +kernel) (by decide +kernel)
  · exact hover.timers Launch.workflowUrl ⟨1⟩ (by decide +kernel) (by decide +kernel)

end Life

end WorkflowLint

import WorkflowLint.Proofs.Coordinator.LiveRuns
/-!
# What ends, and what comes late

A timer or a run is late when its ticket is not in the slot of the document that is open under its
URL now. By the history of a coordinator, that is so when it has reported before or was given up,
and a document that was closed or opened anew gave up all it had. What comes late changes nothing
and is not answered. The end of any other run empties the slot and is answered once, with `settled`
as the last word; a run that came to nothing leaves the diagnostics as they are
(`Life.ends_once`).
-/

namespace WorkflowLint

/-- Whether a run ended without saying anything about its document. -/
def RunEnd.failed : RunEnd → Bool
  | .completed { outcome := .failure _, .. } => true
  | .completed _ => false
  | .crashed _ => true

/-- A timer ran out or a run ended that is not the present one of the document open under its
URL. -/
def Coordinator.IsLate (c : Coordinator) : Message → Prop
  | .command _ => False
  | .elapsed u t => ∀ d, c.documents.get? u = some d → d.pause.occupant ≠ some t
  | .finished run _ => ∀ d, c.documents.get? run.url = some d → d.run.occupant ≠ some run.ticket

/-- A timer ran out or a run ended that had reported before or was given up. -/
def History.IsSpent (h : History) : Message → Prop
  | .command _ => False
  | .elapsed u t => .heard (.elapsed u t) ∈ h ∨ .did (.stopTimer t) ∈ h
  | .finished run _ => run ∈ h.ended run.url ∨ .did (.cancelRun run.ticket) ∈ h

/-- The end of a run is taken from `c` to the state and the effects of `x`. -/
structure Coordinator.Settles (c : Coordinator) (run : Run) (result : RunEnd)
    (x : Coordinator × List Effect) : Prop where
  vacated : ∃ d, x.1.documents.get? run.url = some d ∧ d.run.isOccupied = false
  others : ∀ u, u ≠ run.url → x.1.documents.get? u = c.documents.get? u
  answer : ∃ (ds? : Option (List Diagnostic)) (notice? : Option Notice) (status? : Option Indicator),
    x.2 = (ds?.toList.map fun ds => .emit (.published run.url (some run.version) ds)) ++
      (notice?.toList.map fun n => .emit (.notice n)) ++
      (status?.toList.map fun i => .emit (.status i)) ++ [.emit (.settled run.url)]
  /-- The host hears of no other diagnostics either. -/
  kept : result.failed = true → x.1.published = c.published ∧
    ∀ u version ds, .emit (.published u version ds) ∉ x.2

namespace Coordinator

variable {c : Coordinator} {run : Run} {d : OpenDocument}

theorem handle_of_isLate {m : Message} (hm : c.IsLate m) : c.handle m = (c, []) := by
  cases hstop : c.stopped with
  | true => exact handle_of_stopped hstop m
  | false =>
    rw [handle_of_running hstop]
    cases m with
    | command command => exact hm.elim
    | elapsed u t => exact elapse_of_late hm
    | finished run result => exact finish_of_late hm result

theorem told?_of_failed {result : RunEnd} (hr : result.failed = true) : told? run result = none := by
  cases result with
  | crashed message => rfl
  | completed r =>
    obtain ⟨outcome, invocation⟩ := r
    cases outcome with
    | failure f => rfl
    | findings fs => cases hr
    | warning message => cases hr

theorem exists_notice (run : Run) (now : Health) (result : RunEnd) :
    ∃ notice? : Option Notice,
      notices run now result = notice?.toList.map fun n => .emit (.notice n) := by
  cases result with
  | completed r => exact ⟨noticeAfter? now r.outcome, rfl⟩
  | crashed message => exact ⟨some (crashNotice run message), rfl⟩

theorem exists_status (c : Coordinator) :
    ∃ status? : Option Indicator, c.news = status?.toList.map fun i => .emit (.status i) := by
  rw [news]
  split
  · exact ⟨none, rfl⟩
  · exact ⟨some c.indicator, rfl⟩

theorem settles_finish (hd : c.documents.get? run.url = some d)
    (ht : d.run.occupant = some run.ticket) (result : RunEnd) :
    c.Settles run result (c.finish run result) := by
  obtain ⟨notice?, hnotice⟩ := exists_notice run c.health result
  obtain ⟨status?, hstatus⟩ := (c.concluded run result).exists_status
  rw [finish_of_current hd ht, hnotice, hstatus]
  constructor
  case vacated =>
    refine ⟨{ d with run := {}, phase := phaseAfterEnd result }, ?_, rfl⟩
    simp [told, concluded, modify, hd]
  case others =>
    intro u hu
    simp [told, concluded, modify, hu]
  case answer => exact ⟨told? run result, notice?, status?, rfl⟩
  case kept =>
    intro hr
    have htold : told? run result = none := told?_of_failed hr
    refine ⟨by simp [told, concluded, htold], fun u version ds hmem => ?_⟩
    simp [publication, htold] at hmem

end Coordinator

namespace Life

variable {start : Launch} {c : Coordinator} {h : History} {run : Run} {d : OpenDocument}

theorem isLate_iff (hl : Life start c h) {m : Message} (hm : h.Admits m) :
    c.IsLate m ↔ h.IsSpent m := by
  cases m with
  | command command => exact Iff.rfl
  | elapsed u t =>
    -- a timer that was started is in the slot while it is ticking
    have hstarted : (u, t) ∈ h.filterMap Entry.timer? := hm
    have hticking := hl.isTicking_iff.trans (occupant_pause_iff (c := c) (u := u) (t := t))
    have hlate : c.IsLate (.elapsed u t) ↔ ¬ h.IsTicking u t := by
      rw [hticking, not_exists]
      exact forall_congr' fun d => not_and.symm
    rw [hlate, History.IsTicking, and_iff_right hstarted, not_and_or, not_not, not_not]
    rfl
  | finished run result =>
    -- a run that was begun is in the slot while it is live
    have hbegun : .did (.start run) ∈ h := hm
    have hlive := (hl.inStep run.url).runs run rfl
    have hlate : c.IsLate (.finished run result) ↔ ¬ h.IsLive run := by
      rw [hlive, and_iff_right hbegun, not_exists]
      exact forall_congr' fun d => not_and.symm
    rw [hlate, History.IsLive, and_iff_right hbegun, not_and_or, not_not, not_not]
    rfl

theorem settles (hl : Life start c h) (hd : c.documents.get? run.url = some d)
    (ht : d.run.occupant = some run.ticket) (result : RunEnd) :
    c.Settles run result (c.handle (.finished run result)) := by
  have hrun : c.stopped = false := Bool.eq_false_iff.mpr ((hl.sound run.url).running hd)
  rw [Coordinator.handle_of_running hrun]
  exact Coordinator.settles_finish hd ht result

/-- **What is late does nothing, and what is not ends once.** Of the timers that were started and
the runs that were begun, those are late that have reported or were given up. -/
theorem ends_once (hl : Life start c h) :
    (∀ m, c.IsLate m → c.handle m = (c, [])) ∧
      (∀ m, h.Admits m → (c.IsLate m ↔ h.IsSpent m)) ∧
      ∀ run result d, c.documents.get? run.url = some d → d.run.occupant = some run.ticket →
        c.Settles run result (c.handle (.finished run result)) :=
  ⟨fun _ => Coordinator.handle_of_isLate, fun _ => hl.isLate_iff,
    fun _ result _ hd ht => hl.settles hd ht result⟩

/-- A document is closed and opened anew. The run it had is late, and the one it has breaks
down. -/
theorem ends_once_of_reopened :
    let x := Launch.workflow.after [.command (.closed Launch.workflowUrl),
      .command (.opened { Launch.workflowNotes with language := "yaml" })]
    let run : Run := { Launch.workflowRun 1 with version := 2 }
    x.1.handle (.finished (Launch.workflowRun 0) Launch.oneFinding) = (x.1, []) ∧
      x.1.Settles run (.crashed "boom") (x.1.handle (.finished run (.crashed "boom"))) := by
  intro x run
  have hends := ends_once (Life.after Launch.workflow [.command (.closed Launch.workflowUrl),
    .command (.opened { Launch.workflowNotes with language := "yaml" })] (by decide +kernel))
  have hlate : x.1.IsLate (.finished (Launch.workflowRun 0) Launch.oneFinding) :=
    (hends.2.1 _ (by decide +kernel)).mpr (.inr (by decide +kernel))
  refine ⟨hends.1 _ hlate, hends.2.2 run _ ⟨2, "notes\n", true, .running, ⟨some ⟨1⟩⟩, {}⟩ ?_ rfl⟩
  decide +kernel

end Life

end WorkflowLint

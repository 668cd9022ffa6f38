import WorkflowLint.Proofs.Coordinator.Life
import WorkflowLint.Proofs.Coordinator.Reactions
import WorkflowLint.Rehearsal
/-!
# What a rehearsal lets the coordinator hear

A rehearsal keeps its own books of timers and runs. All in them was started by the coordinator
(`Backed`), so what a rehearsal lets the coordinator hear can come. Hence what holds of a
coordinator and is kept when it hears what can come is kept by all a rehearsal does (`Staged`).
-/

namespace WorkflowLint

def Entry.event? : Entry → Option Event
  | .did (.emit e) => some e
  | _ => none

def History.events (h : History) : List Event := h.filterMap Entry.event?

theorem History.events_append (h g : History) : (h ++ g).events = h.events ++ g.events :=
  List.filterMap_append

namespace Rehearsal

/-- All that is in the books was started before. -/
structure Backed (r : Rehearsal) (h : History) : Prop where
  timers : ∀ t ∈ r.timers, (t.2, t.1.ticket) ∈ h.filterMap Entry.timer?
  begun : ∀ run ∈ r.begun, .did (.start run) ∈ h
  waiting : ∀ c ∈ r.waiting, .did (.start c.run) ∈ h

/-- A property of a coordinator, its history and its events is kept when the coordinator hears of
timers and runs. -/
def Kept (Q : Coordinator → History → List Event → Prop) : Prop :=
  ∀ (c : Coordinator) (h : History) (es : List Event) (m : Message), Q c h es →
    c.stopped = false → h.Admits m → (∀ command, m ≠ .command command) →
    Q (c.handle m).1 (h ++ .heard m :: (c.handle m).2.map .did)
      (es ++ History.events ((c.handle m).2.map .did))

/-- A property holds of the coordinator of a rehearsal, after what it heard. -/
def Staged (Q : Coordinator → History → List Event → Prop) (r : Rehearsal) : Prop :=
  ∃ h, Q r.coordinator h r.events.reverse ∧ r.Backed h

variable {Q : Coordinator → History → List Event → Prop} {r : Rehearsal} {h : History}

theorem Backed.perform (hr : r.Backed h) (e : Effect) : (r.perform e).Backed (h ++ [.did e]) := by
  have hmono : r.Backed (h ++ [.did e]) := by
    refine ⟨fun t ht => ?_, fun run hrun => ?_, fun c hc => ?_⟩
    · rw [List.filterMap_append]
      exact List.mem_append_left _ (hr.timers t ht)
    · exact List.mem_append_left _ (hr.begun run hrun)
    · exact List.mem_append_left _ (hr.waiting c hc)
  cases e with
  | emit e => exact { hmono with }
  | start run =>
    refine { hmono with begun := fun run' hrun => ?_ }
    obtain hold | hnew := List.mem_append.mp hrun
    · exact hmono.begun run' hold
    · rw [List.mem_singleton.mp hnew]
      exact List.mem_append_right _ List.mem_cons_self
  | cancelRun t => exact { hmono with }
  | startTimer u t delay =>
    refine { hmono with timers := fun x hx => ?_ }
    obtain rfl | hold := List.mem_cons.mp ((Timer.perm_insert _ _).mem_iff.mp hx)
    · rw [List.filterMap_append]
      exact List.mem_append_right _ List.mem_cons_self
    · exact hmono.timers x hold
  | stopTimer t =>
    exact { hmono with timers := fun x hx => hmono.timers x (List.mem_filter.mp hx).1 }

theorem coordinator_perform (r : Rehearsal) (e : Effect) :
    (r.perform e).coordinator = r.coordinator := by
  cases e <;> rfl

theorem events_perform (r : Rehearsal) (e : Effect) :
    (r.perform e).events.reverse = r.events.reverse ++ History.events [.did e] := by
  cases e with
  | emit e => exact List.reverse_cons
  | _ => exact (List.append_nil _).symm

theorem Backed.foldl_perform (hr : r.Backed h) (es : List Effect) :
    (es.foldl Rehearsal.perform r).Backed (h ++ es.map .did) ∧
      (es.foldl Rehearsal.perform r).coordinator = r.coordinator ∧
      (es.foldl Rehearsal.perform r).events.reverse =
        r.events.reverse ++ History.events (es.map .did) := by
  induction es generalizing r h with
  | nil =>
    rw [List.map_nil, List.append_nil]
    exact ⟨hr, rfl, (List.append_nil _).symm⟩
  | cons e es ih =>
    obtain ⟨hbacked, hcoordinator, hevents⟩ := ih (hr.perform e)
    refine ⟨?_, hcoordinator.trans (coordinator_perform r e), ?_⟩
    · rwa [List.append_assoc] at hbacked
    · rw [List.foldl_cons, hevents, events_perform, List.append_assoc, ← History.events_append]
      rfl

theorem Backed.hear (hr : r.Backed h) (m : Message) :
    (r.hear m).Backed (h ++ .heard m :: (r.coordinator.handle m).2.map .did) ∧
      (r.hear m).coordinator = (r.coordinator.handle m).1 ∧
      (r.hear m).events.reverse =
        r.events.reverse ++ History.events ((r.coordinator.handle m).2.map .did) := by
  have hheard : Backed { r with coordinator := (r.coordinator.handle m).1 } (h ++ [.heard m]) := by
    refine ⟨fun t ht => ?_, fun run hrun => ?_, fun c hc => ?_⟩
    · rw [List.filterMap_append]
      exact List.mem_append_left _ (hr.timers t ht)
    · exact List.mem_append_left _ (hr.begun run hrun)
    · exact List.mem_append_left _ (hr.waiting c hc)
  have hplayed := hheard.foldl_perform (r.coordinator.handle m).2
  rwa [List.append_assoc] at hplayed

theorem hear_of_stopped (hs : r.coordinator.stopped = true) (m : Message) : r.hear m = r := by
  rw [Rehearsal.hear, Coordinator.handle_of_stopped hs]
  rfl

theorem Staged.hear (hQ : Kept Q) (hr : r.Backed h) (hq : Q r.coordinator h r.events.reverse)
    {m : Message} (hm : h.Admits m) (hc : ∀ command, m ≠ .command command) :
    Staged Q (r.hear m) := by
  cases hs : r.coordinator.stopped with
  | true =>
    rw [hear_of_stopped hs]
    exact ⟨h, hq, hr⟩
  | false =>
    obtain ⟨hbacked, hcoordinator, hevents⟩ := hr.hear m
    refine ⟨_, ?_, hbacked⟩
    rw [hcoordinator, hevents]
    exact hQ _ _ _ _ hq hs hm hc

theorem Staged.answer (hQ : Kept Q) (h : Staged Q r) (number : Nat) (result : RunEnd) :
    Staged Q (r.answer number result) := by
  obtain ⟨h, hq, hr⟩ := h
  rw [Rehearsal.answer]
  cases hfind : r.waiting.find? fun c => c.number = number with
  | none => exact ⟨h, hq, hr⟩
  | some c =>
    have hm : h.Admits (.finished c.run result) := hr.waiting c (List.mem_of_find?_eq_some hfind)
    have hrest : Backed { r with waiting := r.waiting.filter fun c => c.number ≠ number } h :=
      { hr with waiting := fun c' hc' => hr.waiting c' (List.mem_filter.mp hc').1 }
    exact Staged.hear hQ hrest hq hm fun command hc => by cases hc

theorem Backed.foldl_call (hr : r.Backed h) {runs : List Run}
    (hruns : ∀ run ∈ runs, .did (.start run) ∈ h) :
    (runs.foldl call r).Backed h ∧ (runs.foldl call r).coordinator = r.coordinator ∧
      (runs.foldl call r).events = r.events := by
  induction runs generalizing r with
  | nil => exact ⟨hr, rfl, rfl⟩
  | cons run runs ih =>
    have hcall : (r.call run).Backed h := by
      refine { hr with waiting := fun c hc => ?_ }
      obtain hold | hnew := List.mem_append.mp hc
      · exact hr.waiting c hold
      · rw [List.mem_singleton.mp hnew]
        exact hruns run List.mem_cons_self
    exact ih hcall fun run' hrun => hruns run' (List.mem_cons_of_mem _ hrun)

theorem Staged.settle (hQ : Kept Q) (h : Staged Q r) : Staged Q r.settle := by
  obtain ⟨h, hq, hr⟩ := h
  have hnone : Backed { r with begun := [] } h :=
    { hr with begun := fun run hrun => absurd hrun List.not_mem_nil }
  obtain ⟨hbacked, hcoordinator, hevents⟩ := hnone.foldl_call hr.begun
  refine List.foldlRecOn _ _ ⟨h, ?_, hbacked⟩ fun r' hr' number _ => ?_
  · rw [hcoordinator, hevents]
    exact hq
  · split
    · exact hr'.answer hQ number _
    · exact hr'

theorem Staged.ring (hQ : Kept Q) (h : Staged Q r) (t : Timer × Url) : Staged Q (r.ring t) := by
  obtain ⟨h, hq, hr⟩ := h
  rw [Rehearsal.ring]
  split
  · rename_i hmem
    have hm : h.Admits (.elapsed t.2 t.1.ticket) := hr.timers t (List.contains_iff_mem.mp hmem)
    have hrest : Backed { r with
        now := max r.now t.1.deadline
        timers := r.timers.erase t } h :=
      { hr with timers := fun t' ht' => hr.timers t' (List.mem_of_mem_erase ht') }
    exact Staged.settle hQ (Staged.hear hQ hrest hq hm fun command hc => by cases hc)
  · exact ⟨h, hq, hr⟩

theorem Staged.advance (hQ : Kept Q) (h : Staged Q r) (delay : Nat) :
    Staged Q (r.advance delay) := by
  have hrung : ∀ ts : List (Timer × Url), Staged Q (ts.foldl Rehearsal.ring r) := fun ts =>
    List.foldlRecOn ts _ h fun _ hr' t _ => hr'.ring hQ t
  obtain ⟨h', hq, hr⟩ := hrung (r.timers.filter fun t => t.1.deadline ≤ r.now + delay)
  exact ⟨h', hq, { hr with }⟩

end Rehearsal

end WorkflowLint

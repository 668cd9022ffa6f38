import WorkflowLint.Proofs.Coordinator.Turns
/-!
# Slots and what happened to them

The history of a slot is a list of marks: an operation began, ended, or was given up.
`Slot.Tracks` says that what is open by the marks is what the slot holds. It is kept by the four
things that can happen to a slot, whatever the marks are about.

A document has a slot for its run and one for its pause, and a phase. `Clerk.Sound` says that the
three are in step with the file of the document, and every clerk keeps them so (`Life.sound`).
-/

namespace WorkflowLint

/-! ## Slots and their marks -/

/-- What can be told of an operation of a slot. -/
inductive Mark where
  | begun
  | ended
  /-- It was given up. -/
  | stopped
  deriving DecidableEq

/-- What happened to a slot, oldest first. -/
abbrev Marks := List (Mark × Ticket)

/-- The operation began, and has neither ended nor been given up. -/
def Marks.IsOpen (l : Marks) (t : Ticket) : Prop :=
  (.begun, t) ∈ l ∧ (.ended, t) ∉ l ∧ (.stopped, t) ∉ l

namespace Slot

/-- What is open is what the slot holds, and tickets from `n` on are new. -/
structure Tracks (s : Slot) (n : Nat) (l : Marks) : Prop where
  isOpen_iff : ∀ t, l.IsOpen t ↔ s.occupant = some t
  fresh : ∀ m ∈ l, m.2.number < n

variable {s : Slot} {n n' : Nat} {l : Marks} {t : Ticket}

theorem tracks_empty (n : Nat) : Tracks {} n [] where
  isOpen_iff t := ⟨fun ht => absurd ht.1 List.not_mem_nil, fun ht => by cases ht⟩
  fresh _ hm := absurd hm List.not_mem_nil

theorem Tracks.mono (hs : s.Tracks n l) (hn : n ≤ n') : s.Tracks n' l where
  isOpen_iff := hs.isOpen_iff
  fresh m hm := Nat.lt_of_lt_of_le (hs.fresh m hm) hn

theorem Tracks.clear (hs : s.Tracks n l) :
    Tracks {} n (l ++ s.occupant.toList.map (.stopped, ·)) where
  isOpen_iff t := by
    refine ⟨fun ⟨hbegun, hended, hstopped⟩ => ?_, fun ht => by cases ht⟩
    simp only [List.mem_append, List.mem_map, Option.mem_toList, Prod.mk.injEq, true_and,
      reduceCtorEq, false_and, and_false, exists_false, or_false, exists_eq_right, not_or] at *
    exact absurd ((hs.isOpen_iff t).mp ⟨hbegun, hended, hstopped.1⟩) hstopped.2
  fresh m hm := by
    rcases List.mem_append.mp hm with hm | hm
    · exact hs.fresh m hm
    · obtain ⟨t, ht, rfl⟩ := List.mem_map.mp hm
      exact hs.fresh (.begun, t) ((hs.isOpen_iff t).mpr (Option.mem_toList.mp ht)).1

theorem Tracks.fill (hs : Tracks {} n l) : Tracks ⟨some ⟨n⟩⟩ (n + 1) (l ++ [(.begun, ⟨n⟩)]) where
  isOpen_iff t := by
    -- the ticket is new, so nothing was said of it
    have hnew : ∀ mark, (mark, (⟨n⟩ : Ticket)) ∉ l := fun mark hm =>
      absurd (hs.fresh _ hm) (Nat.lt_irrefl n)
    have hold := hs.isOpen_iff t
    simp only [Marks.IsOpen, List.mem_append, List.mem_singleton, Prod.mk.injEq, true_and,
      reduceCtorEq, false_and, or_false, Option.some.injEq, iff_false] at hold ⊢
    constructor
    · rintro ⟨hbegun | rfl, hended, hstopped⟩
      · exact absurd ⟨hbegun, hended, hstopped⟩ hold
      · rfl
    · rintro rfl
      exact ⟨.inr rfl, hnew _, hnew _⟩
  fresh m hm := by
    rcases List.mem_append.mp hm with hm | hm
    · exact Nat.lt_succ_of_lt (hs.fresh m hm)
    · rw [List.mem_singleton.mp hm]
      exact Nat.lt_succ_self n

theorem Tracks.vacate (hs : s.Tracks n l) (ht : s.occupant = some t) :
    Tracks {} n (l ++ [(.ended, t)]) where
  isOpen_iff t' := by
    refine ⟨fun ⟨hbegun, hended, hstopped⟩ => ?_, fun ht => by cases ht⟩
    simp only [List.mem_append, List.mem_singleton, Prod.mk.injEq, true_and, reduceCtorEq,
      false_and, or_false, not_or] at *
    have hoccupant := (hs.isOpen_iff t').mp ⟨hbegun, hended.1, hstopped⟩
    exact absurd (Option.some.inj (hoccupant.symm.trans ht)) hended.2
  fresh m hm := by
    rcases List.mem_append.mp hm with hm | hm
    · exact hs.fresh m hm
    · rw [List.mem_singleton.mp hm]
      exact hs.fresh (.begun, t) ((hs.isOpen_iff t).mpr ht).1

theorem Tracks.late (hs : s.Tracks n l) (ht : s.occupant ≠ some t) (hold : (.begun, t) ∈ l) :
    s.Tracks n (l ++ [(.ended, t)]) where
  isOpen_iff t' := by
    rw [← hs.isOpen_iff]
    simp only [Marks.IsOpen, List.mem_append, List.mem_singleton, Prod.mk.injEq, true_and,
      reduceCtorEq, false_and, or_false, not_or]
    refine ⟨fun hlate => ⟨hlate.1, hlate.2.1.1, hlate.2.2⟩, fun hopen => ?_⟩
    refine ⟨hopen.1, ⟨hopen.2.1, ?_⟩, hopen.2.2⟩
    rintro rfl
    exact ht ((hs.isOpen_iff t').mp hopen)
  fresh m hm := by
    rcases List.mem_append.mp hm with hm | hm
    · exact hs.fresh m hm
    · rw [List.mem_singleton.mp hm]
      exact hs.fresh (.begun, t) hold

end Slot

/-! ## The marks of a history -/

def Entry.runMark? : Entry → Option (Mark × Ticket)
  | .did (.start run) => some (.begun, run.ticket)
  | .heard (.finished run _) => some (.ended, run.ticket)
  | .did (.cancelRun t) => some (.stopped, t)
  | _ => none

def Entry.pauseMark? : Entry → Option (Mark × Ticket)
  | .did (.startTimer _ t _) => some (.begun, t)
  | .heard (.elapsed _ t) => some (.ended, t)
  | .did (.stopTimer t) => some (.stopped, t)
  | _ => none

namespace History

/-- What happened to the runs, oldest first. -/
def runMarks (h : History) : Marks := h.filterMap Entry.runMark?

/-- What happened to the pauses, oldest first. -/
def pauseMarks (h : History) : Marks := h.filterMap Entry.pauseMark?

@[simp] theorem runMarks_append (h es : History) : (h ++ es).runMarks = h.runMarks ++ es.runMarks :=
  List.filterMap_append

@[simp] theorem pauseMarks_append (h es : History) :
    (h ++ es).pauseMarks = h.pauseMarks ++ es.pauseMarks :=
  List.filterMap_append

@[simp] theorem runMarks_nil : runMarks [] = [] := rfl

@[simp] theorem pauseMarks_nil : pauseMarks [] = [] := rfl

@[simp] theorem runMarks_cons (e : Entry) (h : History) :
    runMarks (e :: h) = e.runMark?.toList ++ h.runMarks := by
  cases he : e.runMark? <;> simp [runMarks, he]

@[simp] theorem pauseMarks_cons (e : Entry) (h : History) :
    pauseMarks (e :: h) = e.pauseMark?.toList ++ h.pauseMarks := by
  cases he : e.pauseMark? <;> simp [pauseMarks, he]

section Members

variable {h : History} {t : Ticket}

theorem begun_mem_runMarks :
    (.begun, t) ∈ h.runMarks ↔ ∃ run, .did (.start run) ∈ h ∧ run.ticket = t := by
  rw [runMarks, List.mem_filterMap]
  constructor
  · rintro ⟨e, he, hmark⟩
    unfold Entry.runMark? at hmark
    split at hmark <;> cases hmark
    exact ⟨_, he, rfl⟩
  · rintro ⟨run, he, rfl⟩
    exact ⟨_, he, rfl⟩

theorem ended_mem_runMarks : (.ended, t) ∈ h.runMarks ↔
    ∃ run result, .heard (.finished run result) ∈ h ∧ run.ticket = t := by
  rw [runMarks, List.mem_filterMap]
  constructor
  · rintro ⟨e, he, hmark⟩
    unfold Entry.runMark? at hmark
    split at hmark <;> cases hmark
    exact ⟨_, _, he, rfl⟩
  · rintro ⟨run, result, he, rfl⟩
    exact ⟨_, he, rfl⟩

theorem stopped_mem_runMarks : (.stopped, t) ∈ h.runMarks ↔ .did (.cancelRun t) ∈ h := by
  rw [runMarks, List.mem_filterMap]
  constructor
  · rintro ⟨e, he, hmark⟩
    unfold Entry.runMark? at hmark
    split at hmark <;> cases hmark
    exact he
  · intro he
    exact ⟨_, he, rfl⟩

theorem begun_mem_pauseMarks :
    (.begun, t) ∈ h.pauseMarks ↔ ∃ u delay, .did (.startTimer u t delay) ∈ h := by
  rw [pauseMarks, List.mem_filterMap]
  constructor
  · rintro ⟨e, he, hmark⟩
    unfold Entry.pauseMark? at hmark
    split at hmark <;> cases hmark
    exact ⟨_, _, he⟩
  · rintro ⟨u, delay, he⟩
    exact ⟨_, he, rfl⟩

theorem ended_mem_pauseMarks :
    (.ended, t) ∈ h.pauseMarks ↔ ∃ u, .heard (.elapsed u t) ∈ h := by
  rw [pauseMarks, List.mem_filterMap]
  constructor
  · rintro ⟨e, he, hmark⟩
    unfold Entry.pauseMark? at hmark
    split at hmark <;> cases hmark
    exact ⟨_, he⟩
  · rintro ⟨u, he⟩
    exact ⟨_, he, rfl⟩

theorem stopped_mem_pauseMarks : (.stopped, t) ∈ h.pauseMarks ↔ .did (.stopTimer t) ∈ h := by
  rw [pauseMarks, List.mem_filterMap]
  constructor
  · rintro ⟨e, he, hmark⟩
    unfold Entry.pauseMark? at hmark
    split at hmark <;> cases hmark
    exact he
  · intro he
    exact ⟨_, he, rfl⟩

end Members

variable (d : OpenDocument)

@[simp] theorem runMarks_cancelRun :
    runMarks (d.cancelRun.map .did) = d.run.occupant.toList.map (.stopped, ·) := by
  cases ht : d.run.occupant <;> simp [OpenDocument.cancelRun, ht, Entry.runMark?]

@[simp] theorem pauseMarks_cancelRun : pauseMarks (d.cancelRun.map .did) = [] := by
  cases ht : d.run.occupant <;> simp [OpenDocument.cancelRun, ht, Entry.pauseMark?]

@[simp] theorem runMarks_stopPause : runMarks (d.stopPause.map .did) = [] := by
  cases ht : d.pause.occupant <;> simp [OpenDocument.stopPause, ht, Entry.runMark?]

@[simp] theorem pauseMarks_stopPause :
    pauseMarks (d.stopPause.map .did) = d.pause.occupant.toList.map (.stopped, ·) := by
  cases ht : d.pause.occupant <;> simp [OpenDocument.stopPause, ht, Entry.pauseMark?]

@[simp] theorem runMarks_cancel :
    runMarks (d.cancel.map .did) = d.run.occupant.toList.map (.stopped, ·) := by
  rw [OpenDocument.cancel, List.map_append, runMarks_append, runMarks_stopPause,
    runMarks_cancelRun, List.nil_append]

@[simp] theorem pauseMarks_cancel :
    pauseMarks (d.cancel.map .did) = d.pause.occupant.toList.map (.stopped, ·) := by
  rw [OpenDocument.cancel, List.map_append, pauseMarks_append, pauseMarks_stopPause,
    pauseMarks_cancelRun, List.append_nil]

end History

/-! ## What a clerk keeps in step -/

namespace Clerk

def run (k : Clerk) : Slot := k.document.elim {} (·.run)

def pause (k : Clerk) : Slot := k.document.elim {} (·.pause)

/-- The slots hold what is under way, and the phase says so. -/
structure Sound (k : Clerk) (v : History) : Prop where
  runs : k.run.Tracks k.issued v.runMarks
  pauses : k.pause.Tracks k.issued v.pauseMarks
  phase : ∀ d, k.document = some d → (d.phase = .running ↔ d.run.isOccupied = true)
  /-- Nothing is open after the end. -/
  shut : k.stopped = true → k.document = none

/-- What is done leaves all in step. -/
def Keeps (r : Clerk → Clerk × List Effect) : Prop :=
  ∀ {k v}, Sound k v → Sound (r k).1 (v ++ (r k).2.map .did)

variable {u : Url} {k k' : Clerk} {v es : History} {d : OpenDocument}
  {y : Clerk × List Effect} {r : Clerk → Clerk × List Effect}

theorem Sound.quiet (hk : Sound k v) (hrun : k'.run = k.run) (hpause : k'.pause = k.pause)
    (hissued : k'.issued = k.issued) (hruns : es.runMarks = []) (hpauses : es.pauseMarks = [])
    (hphase : ∀ d, k'.document = some d → (d.phase = .running ↔ d.run.isOccupied = true))
    (hshut : k'.stopped = true → k'.document = none) : Sound k' (v ++ es) where
  runs := by rw [hrun, hissued, History.runMarks_append, hruns, List.append_nil]; exact hk.runs
  pauses := by
    rw [hpause, hissued, History.pauseMarks_append, hpauses, List.append_nil]
    exact hk.pauses
  phase := hphase
  shut := hshut

theorem Sound.idle (hk : Sound k v) : Sound k (v ++ ([] : List Effect).map .did) := by
  rw [List.map_nil, List.append_nil]
  exact hk

theorem Sound.andThen (hy : Sound y.1 (v ++ y.2.map .did)) (hr : Keeps r) :
    Sound (andThen y r).1 (v ++ (andThen y r).2.map .did) := by
  have hboth := hr hy
  rw [List.append_assoc, ← List.map_append] at hboth
  exact hboth

theorem Sound.tracks_of_document (hk : Sound k v) (hd : k.document = some d) :
    d.run.Tracks k.issued v.runMarks ∧ d.pause.Tracks k.issued v.pauseMarks := by
  have hruns := hk.runs
  have hpauses := hk.pauses
  rw [run, hd] at hruns
  rw [pause, hd] at hpauses
  exact ⟨hruns, hpauses⟩

theorem Sound.running (hk : Sound k v) (hd : k.document = some d) : k.stopped ≠ true :=
  fun hs => absurd ((hk.shut hs).symm.trans hd) (by simp)

theorem sound_retire (hk : Sound k v) (hd : k.document = some d) :
    Sound (k.retire u d).1 (v ++ (k.retire u d).2.map .did) := by
  obtain ⟨hruns, hpauses⟩ := hk.tracks_of_document hd
  refine ⟨?_, ?_, ?_, fun hs => absurd hs (hk.running hd)⟩
  · simpa [retire, run, Entry.runMark?] using hruns.clear
  · simpa [retire, pause, Entry.pauseMark?] using hpauses
  · rintro _ ⟨⟩
    simp [Slot.isOccupied]

theorem sound_begin (hk : Sound k v) (hd : k.document = some d) (path : Path) :
    Sound (k.begin u d path).1 (v ++ (k.begin u d path).2.map .did) := by
  obtain ⟨hruns, hpauses⟩ := hk.tracks_of_document hd
  refine ⟨?_, ?_, ?_, fun hs => absurd hs (hk.running hd)⟩
  · simpa [begin, run, nextRun, Entry.runMark?] using hruns.clear.fill
  · simpa [begin, pause, Entry.pauseMark?] using hpauses.mono (Nat.le_succ _)
  · rintro _ ⟨⟩
    exact ⟨fun _ => rfl, fun _ => rfl⟩

theorem keeps_check (u : Url) : Keeps (check u) := by
  intro k v hk
  rw [check]
  split
  · exact hk.idle
  · rename_i d hd
    split
    · exact hk.idle
    · split
      · exact sound_retire hk hd
      · split
        · exact hk.idle
        · exact sound_begin hk hd _

theorem keeps_endPause : Keeps endPause := by
  intro k v hk
  rw [endPause]
  split
  · exact hk.idle
  · rename_i d hd
    obtain ⟨hruns, hpauses⟩ := hk.tracks_of_document hd
    refine ⟨?_, ?_, ?_, fun hs => absurd hs (hk.running hd)⟩
    · simpa [run] using hruns
    · simpa [pause] using hpauses.clear
    · rintro _ ⟨⟩
      exact hk.phase d hd

theorem keeps_startPause (u : Url) : Keeps (startPause u) := by
  intro k v hk
  rw [startPause]
  split
  · exact hk.idle
  · rename_i d hd
    split
    · obtain ⟨hruns, hpauses⟩ := hk.tracks_of_document hd
      refine ⟨?_, ?_, ?_, fun hs => absurd hs (hk.running hd)⟩
      · simpa [run, Entry.runMark?] using hruns.mono (Nat.le_succ _)
      · simpa [pause, Entry.pauseMark?] using hpauses.clear.fill
      · rintro _ ⟨⟩
        exact hk.phase d hd
    · exact hk.idle

theorem keeps_tidy (u : Url) : Keeps (tidy u) := by
  intro k v hk
  rw [tidy]
  split
  · exact (keeps_endPause hk).andThen (keeps_check u)
  · exact hk.idle

theorem Sound.cancelled (hk : Sound k v) (hrun : k'.run = {}) (hpause : k'.pause = {})
    (hissued : k'.issued = k.issued)
    (hphase : ∀ d, k'.document = some d → (d.phase = .running ↔ d.run.isOccupied = true))
    (hshut : k'.stopped = true → k'.document = none) :
    Sound k' (v ++ (k.document.elim [] OpenDocument.cancel).map .did) := by
  cases hd : k.document with
  | none =>
    refine hk.quiet (hrun.trans ?_) (hpause.trans ?_) hissued rfl rfl hphase hshut
    · rw [run, hd]; rfl
    · rw [pause, hd]; rfl
  | some d =>
    obtain ⟨hruns, hpauses⟩ := hk.tracks_of_document hd
    refine ⟨?_, ?_, hphase, hshut⟩
    · rw [hrun, hissued]
      simpa using hruns.clear
    · rw [hpause, hissued]
      simpa using hpauses.clear

theorem keeps_close (u : Url) : Keeps (close u) := by
  intro k v hk
  rw [close]
  split
  · exact hk.idle
  · rename_i d hd
    have hcancelled : Sound { k with document := none } (v ++ d.cancel.map .did) := by
      have hboth : Sound { k with document := none }
          (v ++ (k.document.elim [] OpenDocument.cancel).map .did) :=
        hk.cancelled rfl rfl rfl (by simp) fun _ => rfl
      rwa [hd] at hboth
    rw [List.map_append, ← List.append_assoc]
    refine hcancelled.quiet rfl rfl rfl ?_ ?_ (by simp) (fun _ => rfl) <;>
    · cases hq : d.qualifies <;>
        simp [Coordinator.farewell, hq, Entry.runMark?, Entry.pauseMark?]

theorem keeps_stop : Keeps stop := fun hk =>
  hk.cancelled rfl rfl rfl (by simp [stop]) fun _ => rfl

theorem Sound.heard (hk : Sound k v) (c : Command) : Sound k (v ++ [.heard (.command c)]) :=
  hk.quiet rfl rfl rfl rfl rfl hk.phase hk.shut

theorem Sound.revise (hk : Sound k v) (f : OpenDocument → OpenDocument)
    (hf : ∀ d, (f d).run = d.run ∧ (f d).pause = d.pause ∧ (f d).phase = d.phase) :
    Sound (k.revise f) v := by
  have hquiet : Sound (k.revise f) (v ++ []) := by
    refine hk.quiet ?_ ?_ rfl rfl rfl ?_ ?_
    · cases hd : k.document <;> simp [Clerk.revise, run, hd, hf]
    · cases hd : k.document <;> simp [Clerk.revise, pause, hd, hf]
    · intro d hd
      obtain ⟨old, hold, rfl⟩ := Option.map_eq_some_iff.mp hd
      rw [(hf old).1, (hf old).2.2]
      exact hk.phase old hold
    · intro hs
      exact Option.map_eq_none_iff.mpr (hk.shut hs)
  rwa [List.append_nil] at hquiet

theorem Sound.obey (hk : Sound k v) (hs : k.stopped = false) (u : Url) (c : Command) :
    Sound (k.obey u c).1 (v ++ .heard (.command c) :: (k.obey u c).2.map .did) := by
  have hheard := hk.heard c
  rw [List.append_cons]
  cases c with
  | opened d =>
    have hplace : Sound (k.place d).1 ((v ++ [.heard (.command (.opened d))]) ++
        (k.place d).2.map .did) :=
      hheard.cancelled rfl rfl rfl (by rintro _ ⟨⟩; simp [Coordinator.placed, Slot.isOccupied])
        (fun h => absurd (hs.symm.trans h) Bool.noConfusion)
    exact hplace.andThen (keeps_check u)
  | changed w version text =>
    exact keeps_startPause u (hheard.revise _ fun _ => ⟨rfl, rfl, rfl⟩)
  | saved w text =>
    have hrevised := hheard.revise (fun d => { d with text := text.getD d.text })
      fun _ => ⟨rfl, rfl, rfl⟩
    exact (keeps_endPause hrevised).andThen (keeps_check u)
  | closed w => exact keeps_close u hheard
  | focused w => exact hheard.idle
  | configured s =>
    have hset : Sound { k with settings := s } (v ++ [.heard (.command (.configured s))]) :=
      ⟨hheard.runs, hheard.pauses, hheard.phase, hheard.shut⟩
    exact keeps_tidy u hset
  | rooted workspace =>
    have hset : Sound { k with workspace } (v ++ [.heard (.command (.rooted workspace))]) :=
      ⟨hheard.runs, hheard.pauses, hheard.phase, hheard.shut⟩
    exact hset.idle
  | shutdown => exact keeps_stop hheard

theorem Sound.lateRun {run : Run} (hk : Sound k v) (hm : .did (.start run) ∈ v)
    (ht : k.run.occupant ≠ some run.ticket) (result : RunEnd) :
    Sound k (v ++ [.heard (.finished run result)]) where
  runs := by
    have hlate := hk.runs.late ht (History.begun_mem_runMarks.mpr ⟨run, hm, rfl⟩)
    simpa [Entry.runMark?] using hlate
  pauses := by simpa [Entry.pauseMark?] using hk.pauses
  phase := hk.phase
  shut := hk.shut

theorem Sound.lateTimer {t : Ticket} (hk : Sound k v) (hm : (u, t) ∈ v.filterMap Entry.timer?)
    (ht : k.pause.occupant ≠ some t) : Sound k (v ++ [.heard (.elapsed u t)]) where
  runs := by simpa [Entry.runMark?] using hk.runs
  pauses := by
    obtain ⟨delay, hm⟩ := History.exists_of_mem_timers hm
    have hlate := hk.pauses.late ht (History.begun_mem_pauseMarks.mpr ⟨u, delay, hm⟩)
    simpa [Entry.pauseMark?] using hlate
  phase := hk.phase
  shut := hk.shut

theorem phaseAfterEnd_ne_running (result : RunEnd) :
    Coordinator.phaseAfterEnd result ≠ .running := by
  cases result with
  | crashed => exact nofun
  | completed r =>
    show Coordinator.phaseAfter r.outcome ≠ .running
    cases r.outcome with
    | findings | warning => exact nofun
    | failure f => cases hf : f.isNotFound <;> simp [Coordinator.phaseAfter, hf]

theorem Sound.finish {run : Run} (hk : Sound k v) (hm : .did (.start run) ∈ v) (result : RunEnd) :
    Sound (k.finish run result).1
      (v ++ .heard (.finished run result) :: (k.finish run result).2.map .did) := by
  rw [Clerk.finish]
  split
  · rename_i hd
    exact hk.lateRun hm (by simp [Clerk.run, hd]) result
  · rename_i d hd
    obtain ⟨hruns, hpauses⟩ := hk.tracks_of_document hd
    split
    · -- the run in the slot ends, and what is told of it marks no slot
      rename_i ht
      refine ⟨?_, ?_, ?_, fun hs => absurd hs (hk.running hd)⟩
      · have hvacate := hruns.vacate ht
        cases hds : Coordinator.told? run result <;>
          simpa [Clerk.run, Coordinator.publication, hds, Entry.runMark?] using hvacate
      · cases hds : Coordinator.told? run result <;>
          simpa [Clerk.pause, Coordinator.publication, hds, Entry.pauseMark?] using hpauses
      · rintro _ ⟨⟩
        simp [Slot.isOccupied, phaseAfterEnd_ne_running]
    · rename_i ht
      exact hk.lateRun hm (by simpa [Clerk.run, hd] using ht) result

theorem Sound.elapse {t : Ticket} (hk : Sound k v) (hm : (u, t) ∈ v.filterMap Entry.timer?) :
    Sound (k.elapse u t).1 (v ++ .heard (.elapsed u t) :: (k.elapse u t).2.map .did) := by
  rw [Clerk.elapse]
  split
  · rename_i hd
    exact hk.lateTimer hm (by simp [Clerk.pause, hd])
  · rename_i d hd
    obtain ⟨hruns, hpauses⟩ := hk.tracks_of_document hd
    split
    · rename_i ht
      have hended : Sound { k with document := some { d with pause := {} } }
          (v ++ [.heard (.elapsed u t)]) := by
        refine ⟨?_, ?_, ?_, fun hs => absurd hs (hk.running hd)⟩
        · simpa [Clerk.run, Entry.runMark?] using hruns
        · simpa [Clerk.pause, Entry.pauseMark?] using hpauses.vacate ht
        · rintro _ ⟨⟩
          exact hk.phase d hd
      rw [List.append_cons]
      exact keeps_check u hended
    · rename_i ht
      exact hk.lateTimer hm (by simpa [Clerk.pause, hd] using ht)

theorem Sound.deaf {m : Message} (hk : Sound k v) (hs : k.stopped = true) (hm : v.Admits m) :
    Sound k (v ++ [.heard m]) := by
  have hd := hk.shut hs
  cases m with
  | command c => exact hk.heard c
  | elapsed u t => exact hk.lateTimer hm (by simp [Clerk.pause, hd])
  | finished run result => exact hk.lateRun hm (by simp [Clerk.run, hd]) result

theorem stable_sound (u : Url) : Stable u Sound where
  wait {k v} hk n hn := ⟨hk.runs.mono hn, hk.pauses.mono hn, hk.phase, hk.shut⟩
  handle {k v} hk m hm hv := by
    cases hs : k.stopped with
    | true =>
      rw [handle_of_stopped hs]
      exact hk.deaf hs hv
    | false =>
      rw [handle_of_running hs hm]
      cases m with
      | command c => exact hk.obey hs u c
      | elapsed w t =>
        obtain rfl : w = u := by simpa [Message.isFor] using hm
        exact hk.elapse hv
      | finished run result => exact hk.finish hv result

theorem sound_blank (start : Launch) : start.clerk.Sound [] :=
  ⟨Slot.tracks_empty 0, Slot.tracks_empty 0, nofun, nofun⟩

end Clerk

theorem Life.sound {start : Launch} {c : Coordinator} {h : History} (hl : Life start c h)
    (u : Url) : (c.clerk u).Sound (h.file u) :=
  hl.clerk_induction (Clerk.stable_sound u) (Clerk.sound_blank start)

end WorkflowLint

import WorkflowLint.Proofs.Coordinator.File
/-!
# Tickets are names only

A clerk that has other tickets does the same, with the other tickets (`Clerk.handle_renumber`). It
takes two things: the tickets in hand keep apart, as a clerk compares the ticket of a report with
those in the slots; and the next ticket goes with the next.
-/

namespace WorkflowLint

/-! ## Other tickets -/

section Renumber

variable (σ : Ticket → Ticket)

def Slot.renumber (s : Slot) : Slot := ⟨s.occupant.map σ⟩

def OpenDocument.renumber (d : OpenDocument) : OpenDocument :=
  { d with run := d.run.renumber σ, pause := d.pause.renumber σ }

def Run.renumber (run : Run) : Run := { run with ticket := σ run.ticket }

def Effect.renumber : Effect → Effect
  | .emit e => .emit e
  | .start run => .start (run.renumber σ)
  | .cancelRun t => .cancelRun (σ t)
  | .startTimer u t delay => .startTimer u (σ t) delay
  | .stopTimer t => .stopTimer (σ t)

def Message.renumber : Message → Message
  | .command c => .command c
  | .elapsed u t => .elapsed u (σ t)
  | .finished run result => .finished (run.renumber σ) result

def Entry.renumber : Entry → Entry
  | .heard m => .heard (m.renumber σ)
  | .did e => .did (e.renumber σ)

/-- A clerk with other tickets, the next one too. -/
def Clerk.renumber (k : Clerk) : Clerk :=
  { k with
    issued := (σ ⟨k.issued⟩).number
    document := k.document.map (OpenDocument.renumber σ) }

/-- The ticket after the next goes with the one after the next. -/
def Clerk.Follows (k : Clerk) : Prop := (σ ⟨k.issued + 1⟩).number = (σ ⟨k.issued⟩).number + 1

/-- What a clerk comes to, with other tickets. -/
def Clerk.renumbered (y : Clerk × List Effect) : Clerk × List Effect :=
  (y.1.renumber σ, y.2.map (Effect.renumber σ))

end Renumber

def Message.named? : Message → Option Ticket
  | .command _ => none
  | .elapsed _ t => some t
  | .finished run _ => some run.ticket

section Renumber

variable {σ : Ticket → Ticket}

@[simp] theorem Message.isFor_renumber (u : Url) (m : Message) :
    (m.renumber σ).isFor u = m.isFor u := by
  cases m <;> rfl

@[simp] theorem OpenDocument.cancelRun_renumber (d : OpenDocument) :
    (d.renumber σ).cancelRun = d.cancelRun.map (Effect.renumber σ) := by
  cases ht : d.run.occupant <;> simp [cancelRun, renumber, Slot.renumber, ht, Effect.renumber]

@[simp] theorem OpenDocument.stopPause_renumber (d : OpenDocument) :
    (d.renumber σ).stopPause = d.stopPause.map (Effect.renumber σ) := by
  cases ht : d.pause.occupant <;> simp [stopPause, renumber, Slot.renumber, ht, Effect.renumber]

@[simp] theorem OpenDocument.cancel_renumber (d : OpenDocument) :
    (d.renumber σ).cancel = d.cancel.map (Effect.renumber σ) := by
  simp [cancel]

namespace Clerk

variable {u : Url} {k : Clerk} {d : OpenDocument}

theorem Follows.eq (hnext : k.Follows σ) :
    (σ ⟨k.issued + 1⟩).number = (σ ⟨k.issued⟩).number + 1 := hnext

theorem renumbered_andThen {y y' : Clerk × List Effect} {r : Clerk → Clerk × List Effect}
    (hy : y' = renumbered σ y) (hr : r (y.1.renumber σ) = renumbered σ (r y.1)) :
    andThen y' r = renumbered σ (andThen y r) := by
  subst hy
  show ((r (y.1.renumber σ)).1, y.2.map _ ++ (r (y.1.renumber σ)).2) = _
  rw [hr]
  exact congrArg (Prod.mk _) (List.map_append).symm

theorem retire_renumber (u : Url) (d : OpenDocument) (k : Clerk) :
    (k.renumber σ).retire u (d.renumber σ) = renumbered σ (k.retire u d) := by
  refine Prod.ext rfl ?_
  show (d.renumber σ).cancelRun ++ _ = (d.cancelRun ++ _).map _
  rw [d.cancelRun_renumber, List.map_append]
  rfl

theorem begin_renumber (hnext : k.Follows σ) (u : Url) (d : OpenDocument) (path : Path) :
    (k.renumber σ).begin u (d.renumber σ) path = renumbered σ (k.begin u d path) := by
  have hrun : (k.renumber σ).nextRun u (d.renumber σ) path = (k.nextRun u d path).renumber σ := rfl
  refine Prod.ext ?_ ?_
  · simp [begin, renumbered, renumber, hnext.eq, OpenDocument.renumber, Slot.renumber]
  · show (d.renumber σ).cancelRun ++ [Effect.start _] = (d.cancelRun ++ [Effect.start _]).map _
    rw [d.cancelRun_renumber, List.map_append, hrun]
    rfl

theorem document_renumber (hd : k.document = some d) :
    (k.renumber σ).document = some (d.renumber σ) := by
  rw [renumber, hd]
  rfl

theorem document_renumber_none (hd : k.document = none) : (k.renumber σ).document = none := by
  rw [renumber, hd]
  rfl

theorem check_renumber (hnext : k.Follows σ) (u : Url) :
    (k.renumber σ).check u = renumbered σ (k.check u) := by
  cases hd : k.document with
  | none => simp [check, hd, document_renumber_none hd, renumbered]
  | some d =>
    have hd' : (k.renumber σ).document = some (d.renumber σ) := document_renumber hd
    cases hq : d.qualifies with
    | false => simp [check, hd, hd', hq, OpenDocument.renumber, renumbered]
    | true =>
      cases hon : k.settings.enabled with
      | false =>
        rw [check_of_disabled hd hq hon, check_of_disabled hd' hq hon]
        exact retire_renumber u d k
      | true =>
        cases hpath : u.toPath? with
        | none =>
          have hidle : k.check u = (k, []) := check_of_idle fun _ _ _ => ⟨hon, hpath⟩
          have hidle' : (k.renumber σ).check u = (k.renumber σ, []) :=
            check_of_idle fun _ _ _ => ⟨hon, hpath⟩
          rw [hidle, hidle']
          rfl
        | some path =>
          rw [check_of_enabled hd hq hon hpath, check_of_enabled hd' hq hon hpath]
          exact begin_renumber hnext u d path

theorem endPause_renumber (k : Clerk) : (k.renumber σ).endPause = renumbered σ k.endPause := by
  cases hd : k.document with
  | none => simp [endPause, hd, document_renumber_none hd, renumbered]
  | some d =>
    rw [endPause, endPause, hd, document_renumber hd]
    exact Prod.ext rfl d.stopPause_renumber

@[simp] theorem endPause_issued (k : Clerk) : k.endPause.1.issued = k.issued := by
  rw [endPause]
  split <;> rfl

theorem revise_renumber (σ : Ticket → Ticket) (f : OpenDocument → OpenDocument)
    (hf : ∀ d, f (d.renumber σ) = (f d).renumber σ) (k : Clerk) :
    (k.renumber σ).revise f = (k.revise f).renumber σ := by
  cases hd : k.document <;> simp [revise, renumber, hd, hf]

theorem cancel_renumber (k : Clerk) :
    (k.renumber σ).document.elim [] OpenDocument.cancel =
      (k.document.elim [] OpenDocument.cancel).map (Effect.renumber σ) := by
  cases hd : k.document with
  | none => rw [document_renumber_none hd]; rfl
  | some d =>
    rw [document_renumber hd]
    exact d.cancel_renumber

theorem place_renumber (d : Document) (k : Clerk) :
    (k.renumber σ).place d = renumbered σ (k.place d) :=
  Prod.ext rfl (cancel_renumber k)

theorem stop_renumber (k : Clerk) : (k.renumber σ).stop = renumbered σ k.stop :=
  Prod.ext rfl (cancel_renumber k)

theorem startPause_renumber (hnext : k.Follows σ) (u : Url) :
    (k.renumber σ).startPause u = renumbered σ (k.startPause u) := by
  cases hd : k.document with
  | none => simp [startPause, hd, document_renumber_none hd, renumbered]
  | some d =>
    rw [startPause, startPause, hd, document_renumber hd]
    show (if (d.qualifies && k.settings.lintsOnType) = true then _ else _) =
      renumbered σ (if (d.qualifies && k.settings.lintsOnType) = true then _ else _)
    rw [apply_ite (renumbered σ)]
    refine if_congr Iff.rfl (Prod.ext ?_ ?_) rfl
    · simp [renumbered, renumber, hnext.eq, OpenDocument.renumber, Slot.renumber]
    · show (d.renumber σ).stopPause ++ [Effect.startTimer _ _ _] =
        (d.stopPause ++ [Effect.startTimer _ _ _]).map _
      rw [d.stopPause_renumber, List.map_append]
      rfl

theorem close_renumber (u : Url) (k : Clerk) :
    (k.renumber σ).close u = renumbered σ (k.close u) := by
  cases hd : k.document with
  | none => simp [close, hd, document_renumber_none hd, renumbered]
  | some d =>
    have hfarewell : (Coordinator.farewell u d).map (Effect.renumber σ) =
        Coordinator.farewell u d := by
      cases hq : d.qualifies <;> simp [Coordinator.farewell, hq, Effect.renumber]
    rw [close, close, hd, document_renumber hd]
    refine Prod.ext rfl ?_
    show (d.renumber σ).cancel ++ Coordinator.farewell u d = (d.cancel ++ _).map _
    rw [d.cancel_renumber, List.map_append, hfarewell]

theorem tidy_renumber (hnext : k.Follows σ) (u : Url) :
    (k.renumber σ).tidy u = renumbered σ (k.tidy u) := by
  have hq : (k.renumber σ).document.any (·.qualifies) = k.document.any (·.qualifies) := by
    cases hd : k.document with
    | none => rw [document_renumber_none hd]
    | some d => rw [document_renumber hd]; rfl
  rw [tidy, tidy, hq]
  split
  · refine renumbered_andThen (endPause_renumber k) (check_renumber ?_ u)
    rw [Follows, endPause_issued]
    exact hnext
  · rfl

theorem occupant_renumber_iff {s : Slot} {t : Ticket}
    (hinj : ∀ t' ∈ s.occupant, σ t' = σ t → t' = t) :
    (s.renumber σ).occupant = some (σ t) ↔ s.occupant = some t := by
  cases hs : s.occupant with
  | none => simp [Slot.renumber, hs]
  | some t' =>
    rw [hs] at hinj
    simp only [Slot.renumber, hs, Option.map_some, Option.some.injEq]
    exact ⟨hinj t' rfl, congrArg σ⟩

theorem elapse_renumber (hnext : k.Follows σ) {t : Ticket}
    (hinj : ∀ t' ∈ k.tickets, σ t' = σ t → t' = t) (u : Url) :
    (k.renumber σ).elapse u (σ t) = renumbered σ (k.elapse u t) := by
  cases hd : k.document with
  | none => simp [elapse, hd, document_renumber_none hd, renumbered]
  | some d =>
    have hslot : (d.renumber σ).pause.occupant = some (σ t) ↔ d.pause.occupant = some t := by
      refine occupant_renumber_iff fun t' ht' => hinj t' ?_
      rw [tickets_of_document hd]
      exact List.mem_append_right _ (Option.mem_toList.mpr ht')
    rw [elapse, elapse, hd, document_renumber hd]
    show (if (d.renumber σ).pause.occupant = some (σ t) then _ else _) =
      renumbered σ (if d.pause.occupant = some t then _ else _)
    rw [apply_ite (renumbered σ)]
    refine if_congr hslot ?_ rfl
    exact check_renumber (k := { k with document := some { d with pause := {} } }) hnext u

theorem finish_renumber {run : Run}
    (hinj : ∀ t' ∈ k.tickets, σ t' = σ run.ticket → t' = run.ticket) (result : RunEnd) :
    (k.renumber σ).finish (run.renumber σ) result = renumbered σ (k.finish run result) := by
  cases hd : k.document with
  | none => simp [finish, hd, document_renumber_none hd, renumbered]
  | some d =>
    have hslot : (d.renumber σ).run.occupant = some (σ run.ticket) ↔
        d.run.occupant = some run.ticket := by
      refine occupant_renumber_iff fun t' ht' => hinj t' ?_
      rw [tickets_of_document hd]
      exact List.mem_append_left _ (Option.mem_toList.mpr ht')
    have htold : Coordinator.told? (run.renumber σ) result = Coordinator.told? run result := by
      cases result <;> rfl
    have hpublication : Coordinator.publication (run.renumber σ) result =
        (Coordinator.publication run result).map (Effect.renumber σ) := by
      rw [Coordinator.publication, Coordinator.publication, htold, List.map_map]
      rfl
    rw [finish, finish, hd, document_renumber hd]
    show (if (d.renumber σ).run.occupant = some (σ run.ticket) then _ else _) =
      renumbered σ (if d.run.occupant = some run.ticket then _ else _)
    rw [apply_ite (renumbered σ)]
    refine if_congr hslot (Prod.ext ?_ ?_) rfl
    · rw [htold]
      rfl
    · show Coordinator.publication _ result ++ [_] =
        (Coordinator.publication run result ++ [_]).map _
      rw [List.map_append, hpublication]
      rfl

theorem obey_renumber (hnext : k.Follows σ) (u : Url) (c : Command) :
    (k.renumber σ).obey u c = renumbered σ (k.obey u c) := by
  cases c with
  | opened d =>
    exact renumbered_andThen (place_renumber d k) (check_renumber (k := (k.place d).1) hnext u)
  | changed w version text =>
    have hrevise := revise_renumber σ (fun d => { d with version, text }) (fun _ => rfl) k
    show ((k.renumber σ).revise fun d => { d with version, text }).startPause u = _
    rw [hrevise]
    exact startPause_renumber (k := k.revise fun d => { d with version, text }) hnext u
  | saved w text =>
    have hrevise := revise_renumber σ (fun d => { d with text := text.getD d.text })
      (fun _ => rfl) k
    refine renumbered_andThen ?_ (check_renumber ?_ u)
    · rw [hrevise]
      exact endPause_renumber _
    · rw [Follows, endPause_issued]
      exact hnext
  | closed w => exact close_renumber u k
  | focused w => rfl
  | configured s => exact tidy_renumber (k := { k with settings := s }) hnext u
  | rooted workspace => rfl
  | shutdown => exact stop_renumber k

/-- **A clerk with other tickets does the same with the other tickets.** -/
theorem handle_renumber (hnext : k.Follows σ) {m : Message}
    (hinj : ∀ t ∈ m.named?, ∀ t' ∈ k.tickets, σ t' = σ t → t' = t) (u : Url) :
    (k.renumber σ).handle u (m.renumber σ) = renumbered σ (k.handle u m) := by
  by_cases hm : k.stopped = false ∧ m.isFor u = true
  · obtain ⟨hs, hfor⟩ := hm
    have hfor' : (m.renumber σ).isFor u = true := (m.isFor_renumber u).trans hfor
    rw [handle_of_running hs hfor, handle_of_running (k := k.renumber σ) hs hfor']
    cases m with
    | command c => exact obey_renumber hnext u c
    | elapsed w t => exact elapse_renumber hnext (hinj t rfl) u
    | finished run result => exact finish_renumber (hinj run.ticket rfl) result
  · have hm' : ¬ ((k.renumber σ).stopped = false ∧ (m.renumber σ).isFor u = true) := by
      rwa [m.isFor_renumber u]
    rw [handle_of_deaf hm, handle_of_deaf hm']
    rfl

end Clerk

end Renumber

end WorkflowLint

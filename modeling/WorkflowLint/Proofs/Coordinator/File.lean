import WorkflowLint.Proofs.Coordinator.Clerk
import Mathlib.Data.List.Basic
/-!
# The file of a document

The file of a document is what a history has about it: the messages that are for it or for all, and
the effects that are its own. A cancelled run and a stopped timer go by their tickets, and belong to
the document that the ticket was handed out for.

What a clerk does is about its document (`Clerk.deals_handle`): it names tickets that are in the
slots of the document or that it hands out just then.
-/

namespace WorkflowLint

/-! ## Tickets and files -/

/-- The ticket that an effect names. -/
def Effect.named? : Effect → Option Ticket
  | .emit _ => none
  | .start run => some run.ticket
  | .cancelRun t => some t
  | .startTimer _ t _ => some t
  | .stopTimer t => some t

/-- The ticket that an effect hands out for a document. -/
def Effect.ticket? (u : Url) : Effect → Option Ticket
  | .start run => if run.url = u then some run.ticket else none
  | .startTimer w t _ => if w = u then some t else none
  | _ => none

/-- Whether an effect is about a document, which has these tickets. -/
def Effect.isFor (u : Url) (own : List Ticket) : Effect → Bool
  | .emit (.published w _ _) => w = u
  | .emit (.settled w) => w = u
  | .emit (.status _) => false
  | .emit (.notice _) => false
  | .start run => run.url = u
  | .cancelRun t => own.contains t
  | .startTimer w _ _ => w = u
  | .stopTimer t => own.contains t

namespace Entry

def ticket? (u : Url) : Entry → Option Ticket
  | .heard _ => none
  | .did e => e.ticket? u

def isFor (u : Url) (own : List Ticket) : Entry → Bool
  | .heard m => m.isFor u
  | .did e => e.isFor u own

end Entry

namespace History

/-- The tickets that were handed out for a document, oldest first. -/
def tickets (u : Url) (h : History) : List Ticket := h.filterMap (Entry.ticket? u)

/-- The entries of a history that are about a document. -/
def file (u : Url) (h : History) : History := h.filter (Entry.isFor u (h.tickets u))

end History

def OpenDocument.tickets (d : OpenDocument) : List Ticket :=
  d.run.occupant.toList ++ d.pause.occupant.toList

def Clerk.tickets (k : Clerk) : List Ticket := k.document.elim [] OpenDocument.tickets

/-- The tickets that effects hand out for a document. -/
def Effect.handed (u : Url) (es : List Effect) : List Ticket := es.filterMap (Effect.ticket? u)

namespace Effect

variable {u w : Url} {own more : List Ticket} {e : Effect} {es : List Effect} {t : Ticket}

@[simp] theorem handed_append (es fs : List Effect) :
    handed u (es ++ fs) = handed u es ++ handed u fs := List.filterMap_append

@[simp] theorem handed_cancelRun (d : OpenDocument) : handed u d.cancelRun = [] :=
  List.filterMap_eq_nil_iff.mpr (List.forall_mem_map.mpr fun _ _ => rfl)

@[simp] theorem handed_stopPause (d : OpenDocument) : handed u d.stopPause = [] :=
  List.filterMap_eq_nil_iff.mpr (List.forall_mem_map.mpr fun _ _ => rfl)

@[simp] theorem handed_cancel (d : OpenDocument) : handed u d.cancel = [] := by
  rw [OpenDocument.cancel, handed_append, handed_stopPause, handed_cancelRun, List.append_nil]

theorem isFor_mono (hown : ∀ t ∈ own, t ∈ more) (he : e.isFor u own = true) :
    e.isFor u more = true := by
  cases e with
  | cancelRun t | stopTimer t =>
    simp only [isFor, List.contains_iff_mem] at he ⊢
    exact hown t he
  | emit e => cases e <;> exact he
  | start | startTimer => exact he

theorem isOfDocument_of_isFor (he : e.isFor u own = true) : e.isOfDocument = true := by
  cases e with
  | emit e => cases e <;> first | rfl | cases he
  | _ => rfl

theorem eq_of_isFor (hapart : ∀ t ∈ own, t ∈ more → u = w) (hu : e.isFor u own = true)
    (hw : e.isFor w more = true) : u = w := by
  cases e with
  | cancelRun t | stopTimer t =>
    simp only [isFor, List.contains_iff_mem] at hu hw
    exact hapart t hu hw
  | emit e =>
    cases e with
    | status | notice => cases hu
    | published | settled =>
      simp only [isFor, decide_eq_true_eq] at hu hw
      exact hu.symm.trans hw
  | start | startTimer =>
    simp only [isFor, decide_eq_true_eq] at hu hw
    exact hu.symm.trans hw

theorem handed_of_isFor (hes : ∀ e ∈ es, e.isFor w own = true) (hu : u ≠ w) : handed u es = [] := by
  refine List.filterMap_eq_nil_iff.mpr fun e he => ?_
  have hw := hes e he
  cases e with
  | start | startTimer =>
    simp only [isFor, decide_eq_true_eq] at hw
    exact if_neg fun heq => hu (heq.symm.trans hw)
  | _ => rfl

theorem named?_of_isFor (hes : e ∈ es) (he : e.isFor u own = true) (ht : e.named? = some t) :
    t ∈ own ∨ t ∈ handed u es := by
  cases e with
  | cancelRun | stopTimer =>
    obtain rfl := Option.some.inj ht
    exact .inl (by simpa [isFor] using he)
  | start | startTimer =>
    obtain rfl := Option.some.inj ht
    simp only [isFor, decide_eq_true_eq] at he
    exact .inr (List.mem_filterMap.mpr ⟨_, hes, if_pos he⟩)
  | emit => cases ht

theorem handed_filter (es : List Effect) : handed u (es.filter isOfDocument) = handed u es := by
  rw [handed, handed, List.filterMap_filter]
  refine List.filterMap_congr fun e _ => ?_
  cases e with
  | emit => simp [ticket?]
  | _ => rfl

end Effect

namespace History

variable {u : Url} {h es : History} {t : Ticket}

@[simp] theorem tickets_append (h es : History) :
    tickets u (h ++ es) = tickets u h ++ tickets u es := List.filterMap_append

@[simp] theorem tickets_heard (m : Message) : tickets u [.heard m] = [] := rfl

@[simp] theorem tickets_did (es : List Effect) : tickets u (es.map .did) = Effect.handed u es := by
  rw [tickets, List.filterMap_map]
  rfl

theorem exists_of_mem_tickets (ht : t ∈ tickets u h) :
    ∃ e, .did e ∈ h ∧ e.ticket? u = some t ∧ e.named? = some t := by
  obtain ⟨x, hx, hxt⟩ := List.mem_filterMap.mp ht
  cases x with
  | heard m => cases hxt
  | did e =>
    refine ⟨e, hx, hxt, ?_⟩
    have hticket : e.ticket? u = some t := hxt
    cases e with
    | start run =>
      by_cases hu : run.url = u
      · rwa [Effect.ticket?, if_pos hu] at hticket
      · rw [Effect.ticket?, if_neg hu] at hticket
        cases hticket
    | startTimer w t' delay =>
      by_cases hu : w = u
      · rwa [Effect.ticket?, if_pos hu] at hticket
      · rw [Effect.ticket?, if_neg hu] at hticket
        cases hticket
    | _ => cases hticket

/-- The file grows at its end when no ticket is handed out that was named before. -/
theorem file_append
    (hnew : ∀ e, .did e ∈ h → ∀ t, e.named? = some t → t ∉ tickets u es) :
    file u (h ++ es) = file u h ++ es.filter (Entry.isFor u (tickets u (h ++ es))) := by
  rw [file, List.filter_append, file]
  congr 1
  refine List.filter_congr fun x hx => ?_
  cases x with
  | heard m => rfl
  | did e =>
    cases e with
    | cancelRun t | stopTimer t =>
      have ht := hnew _ hx t rfl
      simp [Entry.isFor, Effect.isFor, ht]
    | emit e => cases e <;> rfl
    | start | startTimer => rfl

theorem mem_file {e : Entry} : e ∈ file u h ↔ e ∈ h ∧ e.isFor u (tickets u h) = true :=
  List.mem_filter

theorem exists_of_mem_timers {w : Url} (ht : (w, t) ∈ h.filterMap Entry.timer?) :
    ∃ delay, .did (.startTimer w t delay) ∈ h := by
  obtain ⟨e, he, het⟩ := List.mem_filterMap.mp ht
  unfold Entry.timer? at het
  split at het
  · rename_i delay
    cases het
    exact ⟨delay, he⟩
  · cases het

theorem mem_timers {w : Url} {delay : Nat} (ht : .did (.startTimer w t delay) ∈ h) :
    (w, t) ∈ h.filterMap Entry.timer? :=
  List.mem_filterMap.mpr ⟨_, ht, rfl⟩

variable {run : Run}

theorem cancelRun_mem_file :
    .did (.cancelRun t) ∈ h.file u ↔ .did (.cancelRun t) ∈ h ∧ t ∈ h.tickets u := by
  simp [mem_file, Entry.isFor, Effect.isFor]

theorem stopTimer_mem_file :
    .did (.stopTimer t) ∈ h.file u ↔ .did (.stopTimer t) ∈ h ∧ t ∈ h.tickets u := by
  simp [mem_file, Entry.isFor, Effect.isFor]

theorem start_mem_file : .did (.start run) ∈ h.file u ↔ .did (.start run) ∈ h ∧ run.url = u := by
  simp [mem_file, Entry.isFor, Effect.isFor]

theorem finished_mem_file {result : RunEnd} :
    .heard (.finished run result) ∈ h.file u ↔
      .heard (.finished run result) ∈ h ∧ run.url = u := by
  simp [mem_file, Entry.isFor, Message.isFor]

theorem startTimer_mem_file {w : Url} {delay : Nat} :
    .did (.startTimer w t delay) ∈ h.file u ↔ .did (.startTimer w t delay) ∈ h ∧ w = u := by
  simp [mem_file, Entry.isFor, Effect.isFor]

theorem elapsed_mem_file {w : Url} :
    .heard (.elapsed w t) ∈ h.file u ↔ .heard (.elapsed w t) ∈ h ∧ w = u := by
  simp [mem_file, Entry.isFor, Message.isFor]

theorem mem_tickets_of_start (hrun : .did (.start run) ∈ h) : run.ticket ∈ h.tickets run.url :=
  List.mem_filterMap.mpr ⟨_, hrun, if_pos rfl⟩

theorem mem_tickets_of_timer (ht : (u, t) ∈ h.filterMap Entry.timer?) : t ∈ h.tickets u := by
  obtain ⟨delay, ht⟩ := exists_of_mem_timers ht
  exact List.mem_filterMap.mpr ⟨_, ht, if_pos rfl⟩

/-- The file of a document says which messages for it can come. -/
theorem admits_file {m : Message} (hm : m.isFor u = true) (h : History) :
    (h.file u).Admits m ↔ h.Admits m := by
  cases m with
  | command => exact .rfl
  | elapsed w t =>
    have hw : w = u := by simpa [Message.isFor] using hm
    constructor
    · intro ht
      obtain ⟨delay, hdelay⟩ := exists_of_mem_timers ht
      exact mem_timers (startTimer_mem_file.mp hdelay).1
    · intro ht
      obtain ⟨delay, hdelay⟩ := exists_of_mem_timers ht
      exact mem_timers (startTimer_mem_file.mpr ⟨hdelay, hw⟩)
  | finished run result =>
    have hw : run.url = u := by simpa [Message.isFor] using hm
    exact start_mem_file.trans (and_iff_left hw)

end History

/-! ## What clerks do with tickets -/

namespace Clerk

/-- What a clerk does is about its document; the tickets are its own, or handed out just now. -/
structure Deals (u : Url) (k : Clerk) (y : Clerk × List Effect) : Prop where
  effects : ∀ e ∈ y.2, e.isFor u (k.tickets ++ Effect.handed u y.2) = true
  handed : ∀ t ∈ Effect.handed u y.2, k.issued ≤ t.number ∧ t.number < y.1.issued
  held : ∀ t ∈ y.1.tickets, t ∈ k.tickets ++ Effect.handed u y.2
  issued : k.issued ≤ y.1.issued

variable {u : Url} {k : Clerk} {d : OpenDocument} {y z : Clerk × List Effect}

theorem Deals.refl (u : Url) (k : Clerk) : Deals u k (k, []) where
  effects _ he := absurd he List.not_mem_nil
  handed _ ht := absurd ht List.not_mem_nil
  held _ ht := List.mem_append_left _ ht
  issued := Nat.le_refl _

theorem Deals.trans (hy : Deals u k y) (hz : Deals u y.1 z) : Deals u k (z.1, y.2 ++ z.2) where
  effects := by
    have hheld := hy.held
    rw [Effect.handed_append, List.forall_mem_append]
    refine ⟨fun e he => Effect.isFor_mono ?_ (hy.effects e he), fun e he =>
      Effect.isFor_mono ?_ (hz.effects e he)⟩ <;>
    · intro t
      have ht := hheld t
      simp only [List.mem_append] at ht ⊢
      tauto
  handed := by
    rw [Effect.handed_append, List.forall_mem_append]
    refine ⟨fun t ht => ?_, fun t ht => ?_⟩
    · exact ⟨(hy.handed t ht).1, Nat.lt_of_lt_of_le (hy.handed t ht).2 hz.issued⟩
    · exact ⟨Nat.le_trans hy.issued (hz.handed t ht).1, (hz.handed t ht).2⟩
  held t ht := by
    have hmid := hy.held t
    have hend := hz.held t ht
    rw [Effect.handed_append]
    simp only [List.mem_append] at hmid hend ⊢
    tauto
  issued := Nat.le_trans hy.issued hz.issued

theorem Deals.andThen {r : Clerk → Clerk × List Effect} (hy : Deals u k y)
    (hr : ∀ k, Deals u k (r k)) : Deals u k (andThen y r) :=
  hy.trans (hr y.1)

theorem deals_of_tickets {k' : Clerk} (htickets : k'.tickets = k.tickets)
    (hissued : k'.issued = k.issued) : Deals u k (k', []) where
  effects _ he := absurd he List.not_mem_nil
  handed _ ht := absurd ht List.not_mem_nil
  held _ ht := List.mem_append_left _ (htickets ▸ ht)
  issued := Nat.le_of_eq hissued.symm

theorem isFor_cancelRun (d : OpenDocument) :
    ∀ e ∈ d.cancelRun, e.isFor u d.tickets = true := by
  refine List.forall_mem_map.mpr fun t ht => ?_
  simp [Effect.isFor, OpenDocument.tickets, Option.mem_toList.mp ht]

theorem isFor_stopPause (d : OpenDocument) :
    ∀ e ∈ d.stopPause, e.isFor u d.tickets = true := by
  refine List.forall_mem_map.mpr fun t ht => ?_
  simp [Effect.isFor, OpenDocument.tickets, Option.mem_toList.mp ht]

theorem isFor_cancel (d : OpenDocument) : ∀ e ∈ d.cancel, e.isFor u d.tickets = true :=
  List.forall_mem_append.mpr ⟨isFor_stopPause d, isFor_cancelRun d⟩

theorem tickets_of_document (hd : k.document = some d) : k.tickets = d.tickets := by
  rw [tickets, hd]
  rfl

theorem deals_of_document {k' : Clerk} {es : List Effect} (hd : k.document = some d)
    (hes : ∀ e ∈ es, e.isFor u d.tickets = true) (hhanded : Effect.handed u es = [])
    (hheld : ∀ t ∈ k'.tickets, t ∈ d.tickets) (hissued : k'.issued = k.issued) :
    Deals u k (k', es) where
  effects e he := by
    rw [hhanded, List.append_nil, tickets_of_document hd]
    exact hes e he
  handed t ht := by
    rw [hhanded] at ht
    exact absurd ht List.not_mem_nil
  held t ht := by
    rw [tickets_of_document hd]
    exact List.mem_append_left _ (hheld t ht)
  issued := Nat.le_of_eq hissued.symm

theorem deals_retire (hd : k.document = some d) : Deals u k (k.retire u d) := by
  refine deals_of_document hd ?_ ?_ ?_ rfl
  · rw [List.forall_mem_append]
    exact ⟨isFor_cancelRun d, by simp [Effect.isFor]⟩
  · rw [Effect.handed_append, Effect.handed_cancelRun]
    rfl
  · intro t ht
    exact List.mem_append_right _ ht

theorem deals_begin (hd : k.document = some d) (path : Path) : Deals u k (k.begin u d path) := by
  have hhanded : Effect.handed u (d.cancelRun ++ [.start (k.nextRun u d path)]) = [⟨k.issued⟩] := by
    rw [Effect.handed_append, Effect.handed_cancelRun]
    simp [Effect.handed, Effect.ticket?, nextRun]
  refine ⟨?_, ?_, ?_, Nat.le_succ _⟩
  · rw [begin, hhanded, tickets_of_document hd, List.forall_mem_append]
    refine ⟨fun e he => ?_, by simp [Effect.isFor, nextRun]⟩
    exact Effect.isFor_mono (fun t ht => List.mem_append_left _ ht) (isFor_cancelRun d e he)
  · rw [begin, hhanded]
    exact List.forall_mem_singleton.mpr ⟨Nat.le_refl _, Nat.lt_succ_self _⟩
  · rw [begin, hhanded, tickets_of_document hd]
    simp only [tickets, Option.elim_some, OpenDocument.tickets, Option.toList_some, List.mem_append,
      List.mem_singleton]
    tauto

theorem deals_check (u : Url) (k : Clerk) : Deals u k (k.check u) := by
  rw [check]
  split
  · exact .refl u k
  · rename_i d hd
    split
    · exact .refl u k
    · split
      · exact deals_retire hd
      · split
        · exact .refl u k
        · exact deals_begin hd _

theorem deals_endPause (u : Url) (k : Clerk) : Deals u k k.endPause := by
  rw [endPause]
  split
  · exact .refl u k
  · rename_i d hd
    refine deals_of_document hd (isFor_stopPause d) (Effect.handed_stopPause d) (fun t ht => ?_) rfl
    have hrun : t ∈ d.run.occupant.toList := by simpa [tickets, OpenDocument.tickets] using ht
    exact List.mem_append_left _ hrun

theorem deals_revise (f : OpenDocument → OpenDocument) (hf : ∀ d, (f d).tickets = d.tickets)
    (u : Url) (k : Clerk) : Deals u k (k.revise f, []) := by
  refine deals_of_tickets ?_ rfl
  cases hd : k.document <;> simp [tickets, revise, hd, hf]

theorem deals_cancel {k' : Clerk} (hnone : k'.tickets = []) (hissued : k'.issued = k.issued) :
    Deals u k (k', k.document.elim [] OpenDocument.cancel) := by
  cases hd : k.document with
  | none => exact deals_of_tickets (hnone.trans (by simp [tickets, hd])) hissued
  | some d =>
    exact deals_of_document hd (isFor_cancel d) (Effect.handed_cancel d) (by simp [hnone]) hissued

theorem deals_place (d : Document) (u : Url) (k : Clerk) : Deals u k (k.place d) :=
  deals_cancel rfl rfl

theorem deals_startPause (u : Url) (k : Clerk) : Deals u k (k.startPause u) := by
  rw [startPause]
  split
  · exact .refl u k
  · rename_i d hd
    split
    · have hhanded : Effect.handed u
          (d.stopPause ++ [.startTimer u ⟨k.issued⟩ k.settings.debounce]) = [⟨k.issued⟩] := by
        rw [Effect.handed_append, Effect.handed_stopPause]
        simp [Effect.handed, Effect.ticket?]
      refine ⟨?_, ?_, ?_, Nat.le_succ _⟩
      · rw [hhanded, tickets_of_document hd, List.forall_mem_append]
        refine ⟨fun e he => ?_, by simp [Effect.isFor]⟩
        exact Effect.isFor_mono (fun t ht => List.mem_append_left _ ht) (isFor_stopPause d e he)
      · rw [hhanded]
        exact List.forall_mem_singleton.mpr ⟨Nat.le_refl _, Nat.lt_succ_self _⟩
      · rw [hhanded, tickets_of_document hd]
        simp only [tickets, Option.elim_some, OpenDocument.tickets, Option.toList_some,
          List.mem_append, List.mem_singleton]
        tauto
    · exact .refl u k

theorem deals_close (u : Url) (k : Clerk) : Deals u k (k.close u) := by
  rw [close]
  split
  · exact .refl u k
  · rename_i d hd
    refine deals_of_document hd ?_ ?_ (by simp [tickets]) rfl
    · rw [List.forall_mem_append]
      refine ⟨isFor_cancel d, ?_⟩
      cases hq : d.qualifies <;> simp [Coordinator.farewell, hq, Effect.isFor]
    · rw [Effect.handed_append, Effect.handed_cancel]
      cases hq : d.qualifies <;> simp [Coordinator.farewell, hq, Effect.handed, Effect.ticket?]

theorem deals_tidy (u : Url) (k : Clerk) : Deals u k (k.tidy u) := by
  rw [tidy]
  split
  · exact (deals_endPause u k).andThen (deals_check u)
  · exact .refl u k

theorem deals_elapse (u : Url) (t : Ticket) (k : Clerk) : Deals u k (k.elapse u t) := by
  rw [elapse]
  split
  · exact .refl u k
  · rename_i d hd
    split
    · have hend : Deals u k ({ k with document := some { d with pause := {} } }, []) := by
        refine deals_of_document hd (by simp) rfl (fun t ht => ?_) rfl
        have hrun : t ∈ d.run.occupant.toList := by simpa [tickets, OpenDocument.tickets] using ht
        exact List.mem_append_left _ hrun
      exact hend.trans (deals_check u _)
    · exact .refl u k

theorem deals_finish {run : Run} (hu : run.url = u) (result : RunEnd) (k : Clerk) :
    Deals u k (k.finish run result) := by
  rw [finish]
  split
  · exact .refl u k
  · rename_i d hd
    split
    · refine deals_of_document hd ?_ ?_ (fun t ht => List.mem_append_right _ ht) rfl
      · rw [List.forall_mem_append]
        exact ⟨List.forall_mem_map.mpr fun _ _ => by simp [Effect.isFor, hu],
          by simp [Effect.isFor, hu]⟩
      · cases hds : Coordinator.told? run result <;>
          simp [Coordinator.publication, hds, Effect.handed, Effect.ticket?]
    · exact .refl u k

theorem deals_obey (u : Url) (k : Clerk) (command : Command) : Deals u k (k.obey u command) := by
  cases command with
  | opened d => exact (deals_place d u k).andThen (deals_check u)
  | changed w version text =>
    exact (deals_revise (fun d => { d with version, text }) (fun _ => rfl) u k).andThen
      (deals_startPause u)
  | saved w text =>
    exact ((deals_revise (fun d => { d with text := text.getD d.text }) (fun _ => rfl) u k).andThen
      (deals_endPause u)).andThen (deals_check u)
  | closed w => exact deals_close u k
  | focused w => exact .refl u k
  | configured s =>
    have hset : Deals u k ({ k with settings := s }, []) := deals_of_tickets rfl rfl
    exact hset.trans (deals_tidy u _)
  | rooted workspace => exact deals_of_tickets rfl rfl
  | shutdown => exact deals_cancel rfl rfl

theorem deals_handle (u : Url) (m : Message) (k : Clerk) : Deals u k (k.handle u m) := by
  by_cases hm : k.stopped = false ∧ m.isFor u = true
  · obtain ⟨hs, hfor⟩ := hm
    rw [handle_of_running hs hfor]
    cases m with
    | command command => exact deals_obey u k command
    | elapsed w t => exact deals_elapse u t k
    | finished run result => exact deals_finish (by simpa [Message.isFor] using hfor) result k
  · rw [handle_of_deaf hm]
    exact .refl u k

end Clerk

end WorkflowLint

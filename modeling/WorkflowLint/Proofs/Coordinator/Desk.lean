import WorkflowLint.Proofs.Coordinator.Life
import WorkflowLint.Proofs.Coordinator.Reactions
import Mathlib.Logic.Relation
/-!
# One document at a time

A desk is what a coordinator holds for one document, with the settings in force and the history.
`Desk.Step` lists all that can happen to a desk, and `Life.steps` says that whatever happens to a
coordinator happens to each of its desks by these steps. An invariant of one document is thus
proved once for each step (`Life.desk_induction`), and no proof about lives opens a reaction.

Most of what happens concerns other documents: it leaves the desk alone but for its history, to
which it adds entries that do not concern it, and for the number of tickets (`Step.away`).
-/

namespace WorkflowLint

/-- What a coordinator holds for one document, and what happened so far. -/
structure Desk where
  settings : Settings
  /-- The number of tickets handed out. -/
  issued : Nat
  stopped : Bool
  document : Option OpenDocument
  diagnostics : List Diagnostic
  history : History

def Coordinator.desk (c : Coordinator) (u : Url) (h : History) : Desk :=
  { settings := c.settings
    issued := c.issued
    stopped := c.stopped
    document := c.documents.get? u
    diagnostics := c.published.get u
    history := h }

namespace Desk

/-- What can happen to the desk of the document `u`. -/
inductive Step (u : Url) : Desk → Desk → Prop where
  /-- Something that does not concern the document. -/
  | away {k : Desk} {n : Nat} {es : History} (hn : k.issued ≤ n)
      (hes : ∀ e ∈ es, ¬ e.concerns u) :
      Step u k { k with issued := n, history := k.history ++ es }
  /-- A message after the end. -/
  | deaf {k : Desk} {m : Message} (hs : k.stopped = true) (hm : k.history.Admits m) :
      Step u k { k with history := k.history ++ [.heard m] }
  | opened {k : Desk} {d : Document} (hrun : k.stopped = false) (hd : d.url = u) :
      Step u k { k with
        document := some (Coordinator.placed d)
        history := k.history ++ .heard (.command (.opened d)) ::
          (k.document.elim [] OpenDocument.cancel).map .did }
  | changed {k : Desk} {version : Int} {text : String} :
      Step u k { k with
        document := k.document.map fun d => { d with version, text }
        history := k.history ++ [.heard (.command (.changed u version text))] }
  | scheduled {k : Desk} {d : OpenDocument} (hd : k.document = some d) (hq : d.qualifies = true)
      (hon : k.settings.lintsOnType = true) :
      Step u k { k with
        issued := k.issued + 1
        document := some { d with pause := ⟨some ⟨k.issued⟩⟩ }
        history := k.history ++
          (d.stopPause ++ [Effect.startTimer u ⟨k.issued⟩ k.settings.debounce]).map .did }
  | saved {k : Desk} {text : Option String} :
      Step u k { k with
        document := k.document.map fun d => { d with text := text.getD d.text }
        history := k.history ++ [.heard (.command (.saved u text))] }
  | unpaused {k : Desk} {d : OpenDocument} (hd : k.document = some d) :
      Step u k { k with
        document := some { d with pause := {} }
        history := k.history ++ d.stopPause.map .did }
  | closed {k : Desk} {d : OpenDocument} (hd : k.document = some d) :
      Step u k { k with
        document := none
        diagnostics := if d.qualifies then [] else k.diagnostics
        history := k.history ++ .heard (.command (.closed u)) ::
          (d.cancel ++ Coordinator.farewell u d).map .did }
  /-- The document to close is not open. -/
  | missing {k : Desk} (hd : k.document = none) :
      Step u k { k with history := k.history ++ [.heard (.command (.closed u))] }
  | configured {k : Desk} {s : Settings} :
      Step u k { k with
        settings := s
        history := k.history ++ [.heard (.command (.configured s))] }
  | begun {k : Desk} {d : OpenDocument} {run : Run} (hd : k.document = some d)
      (hq : d.qualifies = true) (hon : k.settings.enabled = true) (hu : run.url = u)
      (ht : run.ticket = ⟨k.issued⟩) (hv : run.version = d.version)
      (hx : run.request.text = d.text) (hs : run.request.settings = k.settings) :
      Step u k { k with
        issued := k.issued + 1
        document := some { d with run := ⟨some run.ticket⟩, phase := .running }
        history := k.history ++ (d.cancelRun ++ [Effect.start run]).map .did }
  /-- Checking is switched off. The entries between are about the status. -/
  | retired {k : Desk} {d : OpenDocument} {es : History} (hd : k.document = some d)
      (hq : d.qualifies = true) (hoff : k.settings.enabled = false)
      (hes : ∀ e ∈ es, ¬ e.concerns u) :
      Step u k { k with
        document := some { d with run := {}, phase := .idle }
        diagnostics := []
        history := k.history ++ (d.cancelRun.map .did ++
          .did (.emit (.published u none [])) :: es ++ [.did (.emit (.settled u))]) }
  /-- The pause ended. -/
  | elapsed {k : Desk} {d : OpenDocument} {t : Ticket} (hd : k.document = some d)
      (ht : d.pause.occupant = some t) :
      Step u k { k with
        document := some { d with pause := {} }
        history := k.history ++ [.heard (.elapsed u t)] }
  /-- A timer that no longer counts. -/
  | lateTimer {k : Desk} {t : Ticket}
      (ht : ∀ d, k.document = some d → d.pause.occupant ≠ some t) :
      Step u k { k with history := k.history ++ [.heard (.elapsed u t)] }
  /-- The run under way ended. The entries between are notices and the status. -/
  | ended {k : Desk} {d : OpenDocument} {run : Run} {result : RunEnd} {es : History}
      (hu : run.url = u) (hm : .did (.start run) ∈ k.history) (hd : k.document = some d)
      (ht : d.run.occupant = some run.ticket) (hes : ∀ e ∈ es, ¬ e.concerns u) :
      Step u k { k with
        document := some { d with run := {}, phase := Coordinator.phaseAfterEnd result }
        diagnostics := (Coordinator.told? run result).getD k.diagnostics
        history := k.history ++ .heard (.finished run result) ::
          ((Coordinator.publication run result).map .did ++ es ++ [.did (.emit (.settled u))]) }
  /-- A run that no longer counts. -/
  | lateRun {k : Desk} {run : Run} {result : RunEnd} (hu : run.url = u)
      (hm : .did (.start run) ∈ k.history)
      (ht : ∀ d, k.document = some d → d.run.occupant ≠ some run.ticket) :
      Step u k { k with history := k.history ++ [.heard (.finished run result)] }
  | stopped {k : Desk} {es : History} (hes : ∀ e ∈ es, ¬ e.concerns u) :
      Step u k { k with
        stopped := true
        document := none
        diagnostics := []
        history := k.history ++ .heard (.command .shutdown) :: es }

/-- What can happen to a desk, step after step. -/
abbrev Steps (u : Url) : Desk → Desk → Prop := Relation.ReflTransGen (Step u)

/-! ## Reactions -/

/-- What the coordinator comes to, with its effects, moves the desk of a document by steps. -/
def Moves (u : Url) (c : Coordinator) (x : Coordinator × List Effect) : Prop :=
  ∀ h : History, Steps u (c.desk u h) (x.1.desk u (h ++ x.2.map .did))

open Coordinator

variable {u w : Url} {c c' : Coordinator} {d : OpenDocument}

theorem Moves.refl (c : Coordinator) : Moves u c (c, []) := by
  intro h
  rw [List.map_nil, List.append_nil]

theorem Moves.trans {x y : Coordinator × List Effect} (hx : Moves u c x) (hy : Moves u x.1 y) :
    Moves u c (y.1, x.2 ++ y.2) := by
  intro h
  rw [List.map_append, ← List.append_assoc]
  exact (hx h).trans (hy _)

theorem Moves.sequence {rs : List Reaction} (hrs : ∀ r ∈ rs, ∀ c, Moves u c (r c)) :
    ∀ c, Moves u c (Reaction.sequence rs c) := by
  induction rs with
  | nil => exact Moves.refl
  | cons r rs ih =>
    intro c
    exact (hrs r (by simp) c).trans (ih (fun s hs => hrs s (by simp [hs])) _)

theorem steps_away {h es : History} (hsettings : c'.settings = c.settings)
    (hissued : c.issued ≤ c'.issued) (hstopped : c'.stopped = c.stopped)
    (hdocument : c'.documents.get? u = c.documents.get? u)
    (hpublished : c'.published.get u = c.published.get u) (hes : ∀ e ∈ es, ¬ e.concerns u) :
    Steps u (c.desk u h) (c'.desk u (h ++ es)) := by
  have hstep := Step.away (k := c.desk u h) hissued hes
  rw [desk] at hstep
  rw [desk, desk, hsettings, hstopped, hdocument, hpublished]
  exact .single hstep

theorem steps_modify {h es : History} (hw : u ≠ w) (f : OpenDocument → OpenDocument)
    (hes : ∀ e ∈ es, ¬ e.concerns u) :
    Steps u (c.desk u h) ((c.modify w f).desk u (h ++ es)) := by
  refine steps_away rfl (Nat.le_refl _) rfl ?_ rfl hes
  rw [Coordinator.modify, Table.get?_modify, if_neg hw]

theorem not_concerns_cancelRun (d : OpenDocument) :
    ∀ e ∈ d.cancelRun.map Entry.did, ¬ e.concerns u := by
  rw [OpenDocument.cancelRun, List.map_map]
  exact List.forall_mem_map.mpr fun _ _ => id

theorem not_concerns_stopPause (d : OpenDocument) :
    ∀ e ∈ d.stopPause.map Entry.did, ¬ e.concerns u := by
  rw [OpenDocument.stopPause, List.map_map]
  exact List.forall_mem_map.mpr fun _ _ => id

theorem not_concerns_cancel (d : OpenDocument) :
    ∀ e ∈ d.cancel.map Entry.did, ¬ e.concerns u := by
  rw [OpenDocument.cancel, List.map_append, List.forall_mem_append]
  exact ⟨not_concerns_stopPause d, not_concerns_cancelRun d⟩

theorem not_concerns_news (c : Coordinator) : ∀ e ∈ c.news.map Entry.did, ¬ e.concerns u := by
  rw [news]
  split
  · exact List.forall_mem_nil _
  · exact List.forall_mem_singleton.mpr id

theorem moves_told (c : Coordinator) : Moves u c (c.told, c.news) := fun _ =>
  steps_away rfl (Nat.le_refl _) rfl rfl rfl (not_concerns_news c)

theorem moves_endPause (w : Url) (c : Coordinator) : Moves u c (endPause w c) := by
  cases hd : c.documents.get? w with
  | none =>
    rw [endPause_of_none hd]
    exact .refl c
  | some d =>
    rw [endPause_of_some hd]
    intro h
    by_cases hw : u = w
    · subst hw
      have hstep := Step.unpaused (u := u) (k := c.desk u h) hd
      simp only [desk, Coordinator.modify, Table.get?_modify, if_pos, hd, Option.map_some] at hstep ⊢
      exact .single hstep
    · exact steps_modify hw _ (not_concerns_stopPause d)

theorem moves_begin {path : Path} (hd : c.documents.get? w = some d) (hq : d.qualifies = true)
    (hon : c.settings.enabled = true) : Moves u c (begin w d path c) := by
  intro h
  by_cases hw : u = w
  · subst hw
    have hstep := @Step.begun u (c.desk u h) d
      ⟨u, ⟨c.issued⟩, d.version, c.request u d path⟩ hd hq hon rfl rfl rfl rfl rfl
    simp only [desk, begin, Coordinator.modify, Table.get?_modify, if_pos, hd, Option.map_some] at hstep ⊢
    exact .single hstep
  · refine steps_away rfl (Nat.le_succ _) rfl ?_ rfl ?_
    · rw [begin, Coordinator.modify, Table.get?_modify, if_neg hw]
    · rw [begin, List.map_append, List.forall_mem_append]
      exact ⟨not_concerns_cancelRun d, List.forall_mem_singleton.mpr (Ne.symm hw)⟩

theorem moves_retire (hd : c.documents.get? w = some d) (hq : d.qualifies = true)
    (hoff : c.settings.enabled = false) : Moves u c (retire w d c) := by
  rw [retire_eq]
  intro h
  by_cases hw : u = w
  · subst hw
    have hstep := Step.retired (u := u) (k := c.desk u h) hd hq hoff (not_concerns_news (c.retired u))
    simp only [desk, retired, told, Coordinator.modify, Table.get?_modify, if_pos, hd, Option.map_some,
      Published.get_remove, List.map_append, List.map_cons, List.map_nil] at hstep ⊢
    exact .single hstep
  · refine steps_away rfl (Nat.le_refl _) rfl ?_ ?_ ?_
    · simp [told, retired, Coordinator.modify, hw]
    · simp [told, retired, hw]
    · simp only [List.map_append, List.map_cons, List.map_nil, List.forall_mem_append,
        List.forall_mem_cons]
      exact ⟨⟨not_concerns_cancelRun d, Ne.symm hw, not_concerns_news _⟩, Ne.symm hw,
        List.forall_mem_nil _⟩

theorem moves_check (w : Url) (c : Coordinator) : Moves u c (check w c) := by
  obtain ⟨hc, -⟩ | ⟨d, hd, hq, hoff, hc⟩ | ⟨d, path, hd, hq, hon, -, hc⟩ := check_cases w c
  · rw [hc]
    exact .refl c
  · rw [hc]
    exact moves_retire hd hq hoff
  · rw [hc]
    exact (moves_begin hd hq hon).trans (moves_told _)

theorem moves_startPause (hd : c.documents.get? w = some d) (hq : d.qualifies = true)
    (hon : c.settings.lintsOnType = true) : Moves u c (startPause w d c) := by
  intro h
  by_cases hw : u = w
  · subst hw
    have hstep := Step.scheduled (u := u) (k := c.desk u h) hd hq hon
    simp only [desk, startPause, Coordinator.modify, Table.get?_modify, if_pos, hd, Option.map_some] at hstep ⊢
    exact .single hstep
  · refine steps_away rfl (Nat.le_succ _) rfl ?_ rfl ?_
    · rw [startPause, Coordinator.modify, Table.get?_modify, if_neg hw]
    · rw [startPause, List.map_append, List.forall_mem_append]
      exact ⟨not_concerns_stopPause d, List.forall_mem_singleton.mpr (Ne.symm hw)⟩

/-! ## Messages -/

/-- A message is heard and first comes to `c'`, and the reaction goes on from there. -/
theorem Moves.after {h : History} {e : Entry} {es : List Effect} {x : Coordinator × List Effect}
    (hfirst : Steps u (c.desk u h) (c'.desk u (h ++ e :: es.map .did))) (hx : Moves u c' x) :
    Steps u (c.desk u h) (x.1.desk u (h ++ e :: (es ++ x.2).map .did)) := by
  rw [List.map_append, ← List.cons_append, ← List.append_assoc]
  exact hfirst.trans (hx _)

theorem Moves.next {h : History} {e : Entry} {x : Coordinator × List Effect}
    (hfirst : Steps u (c.desk u h) (c'.desk u (h ++ [e]))) (hx : Moves u c' x) :
    Steps u (c.desk u h) (x.1.desk u (h ++ e :: x.2.map .did)) := by
  rw [List.append_cons]
  exact hfirst.trans (hx _)

theorem steps_openDocument (hrun : c.stopped = false) (d : Document) (h : History) :
    Steps u (c.desk u h) ((openDocument d c).1.desk u
      (h ++ .heard (.command (.opened d)) :: (openDocument d c).2.map .did)) := by
  rw [openDocument_eq]
  refine Moves.after ?_ (moves_check d.url (c.place d))
  by_cases hd : d.url = u
  · have hstep := Step.opened (k := c.desk u h) hrun hd
    subst hd
    simp only [desk, place, replaced, Table.get?_insert, if_pos] at hstep ⊢
    exact .single hstep
  · refine steps_away rfl (Nat.le_refl _) rfl ?_ rfl ?_
    · rw [place, Table.get?_insert, if_neg (Ne.symm hd)]
    · refine List.forall_mem_cons.mpr ⟨hd, ?_⟩
      rw [replaced]
      cases c.documents.get? d.url with
      | none => exact List.forall_mem_nil _
      | some old => exact not_concerns_cancel old

theorem steps_changeDocument (w : Url) (version : Int) (text : String) (c : Coordinator)
    (h : History) :
    Steps u (c.desk u h) ((changeDocument w version text c).1.desk u
      (h ++ .heard (.command (.changed w version text)) ::
        (changeDocument w version text c).2.map .did)) := by
  have hedit : Steps u (c.desk u h) ((c.edited w version text).desk u
      (h ++ [.heard (.command (.changed w version text))])) := by
    by_cases hw : w = u
    · subst hw
      have hstep := @Step.changed w (c.desk w h) version text
      simp only [desk, edited, Coordinator.modify, Table.get?_modify, if_pos] at hstep ⊢
      exact .single hstep
    · exact steps_modify (Ne.symm hw) _ (List.forall_mem_singleton.mpr hw)
  cases hd : c.documents.get? w with
  | none =>
    rw [changeDocument_of_none hd]
    have hsame : (c.edited w version text).desk u = c.desk u := by
      funext g
      by_cases hw : w = u
      · subst hw
        simp [desk, edited, Coordinator.modify, hd]
      · simp [desk, edited, Coordinator.modify, Ne.symm hw]
    rw [hsame] at hedit
    exact hedit
  | some d =>
    rw [changeDocument_of_some hd]
    split
    · rename_i hon
      rw [Bool.and_eq_true] at hon
      refine Moves.next hedit ?_
      have hd' : (c.edited w version text).documents.get? w = some { d with version, text } := by
        rw [edited, Coordinator.modify, Table.get?_modify, if_pos rfl, hd, Option.map_some]
      -- the timer of the pause is that of the document before the edit
      show Moves u _ (startPause w { d with version, text } _)
      exact moves_startPause hd' hon.1 hon.2
    · exact hedit

theorem steps_saveDocument (w : Url) (text : Option String) (c : Coordinator) (h : History) :
    Steps u (c.desk u h) ((saveDocument w text c).1.desk u
      (h ++ .heard (.command (.saved w text)) :: (saveDocument w text c).2.map .did)) := by
  rw [saveDocument_eq]
  refine Moves.next ?_ ((moves_endPause w (c.saved w text)).trans (moves_check w _))
  by_cases hw : w = u
  · subst hw
    have hstep := @Step.saved w (c.desk w h) text
    simp only [desk, Coordinator.saved, Coordinator.modify, Table.get?_modify, if_pos] at hstep ⊢
    exact .single hstep
  · exact steps_modify (Ne.symm hw) _ (List.forall_mem_singleton.mpr hw)

theorem steps_closeDocument (w : Url) (c : Coordinator) (h : History) :
    Steps u (c.desk u h) ((closeDocument w c).1.desk u
      (h ++ .heard (.command (.closed w)) :: (closeDocument w c).2.map .did)) := by
  cases hd : c.documents.get? w with
  | none =>
    rw [closeDocument_of_none hd]
    by_cases hw : w = u
    · subst hw
      exact .single (Step.missing (k := c.desk w h) hd)
    · exact steps_away rfl (Nat.le_refl _) rfl rfl rfl (List.forall_mem_singleton.mpr hw)
  | some d =>
    rw [closeDocument_of_some hd]
    refine Moves.after ?_ (moves_told (c.without w d))
    by_cases hw : w = u
    · subst hw
      have hstep := Step.closed (u := w) (k := c.desk w h) hd
      have hp : (c.without w d).published.get w =
          if d.qualifies then [] else c.published.get w := by
        cases hq : d.qualifies <;> simp [without, hq]
      simp only [desk] at hstep ⊢
      rw [hp, show (c.without w d).documents.get? w = none by simp [without]]
      exact .single hstep
    · refine steps_away rfl (Nat.le_refl _) rfl ?_ ?_ ?_
      · simp [without, Ne.symm hw]
      · cases hq : d.qualifies <;> simp [without, hq, Ne.symm hw]
      · rw [List.map_append, List.forall_mem_cons, List.forall_mem_append]
        refine ⟨hw, not_concerns_cancel d, ?_⟩
        rw [farewell]
        split
        · exact List.forall_mem_singleton.mpr hw
        · exact List.forall_mem_nil _

theorem steps_configure (s : Settings) (c : Coordinator) (h : History) :
    Steps u (c.desk u h) ((configure s c).1.desk u
      (h ++ .heard (.command (.configured s)) :: (configure s c).2.map .did)) := by
  rw [configure_eq]
  have hset : Steps u (c.desk u h) (({ c with settings := s } : Coordinator).desk u
      (h ++ [.heard (.command (.configured s))])) :=
    .single (Step.configured (u := u) (k := c.desk u h))
  refine Moves.next hset (Moves.sequence (fun r hr c => ?_) _)
  obtain ⟨w, -, rfl⟩ := List.mem_map.mp hr
  exact (moves_endPause w c).trans (moves_check w _)

theorem steps_elapse (w : Url) (t : Ticket) (c : Coordinator) (h : History) :
    Steps u (c.desk u h) ((elapse w t c).1.desk u
      (h ++ .heard (.elapsed w t) :: (elapse w t c).2.map .did)) := by
  by_cases ht : ∃ d, c.documents.get? w = some d ∧ d.pause.occupant = some t
  · obtain ⟨d, hd, ht⟩ := ht
    rw [elapse_of_current hd ht]
    refine Moves.next ?_ (moves_check w (c.modify w fun d => { d with pause := {} }))
    by_cases hw : w = u
    · subst hw
      have hstep := Step.elapsed (u := w) (k := c.desk w h) hd ht
      simp only [desk, Coordinator.modify, Table.get?_modify, if_pos, hd, Option.map_some] at hstep ⊢
      exact .single hstep
    · exact steps_modify (Ne.symm hw) _ (List.forall_mem_singleton.mpr hw)
  · have hlate : ∀ d, c.documents.get? w = some d → d.pause.occupant ≠ some t :=
      fun d hd htd => ht ⟨d, hd, htd⟩
    rw [elapse_of_late hlate]
    by_cases hw : w = u
    · subst hw
      exact .single (Step.lateTimer (k := c.desk w h) hlate)
    · exact steps_away rfl (Nat.le_refl _) rfl rfl rfl (List.forall_mem_singleton.mpr hw)

theorem not_concerns_notices (run : Run) (now : Health) (result : RunEnd) :
    ∀ e ∈ (notices run now result).map Entry.did, ¬ e.concerns u := by
  cases result with
  | completed r =>
    rw [notices, List.map_map]
    exact List.forall_mem_map.mpr fun _ _ => id
  | crashed message => exact List.forall_mem_singleton.mpr id

theorem published_concluded (run : Run) (result : RunEnd) (c : Coordinator) (u : Url) :
    (c.concluded run result).published.get u =
      if u = run.url then (told? run result).getD (c.published.get u) else c.published.get u := by
  cases ht : told? run result <;> simp [concluded, ht]

theorem steps_finish {run : Run} {h : History} (hm : .did (.start run) ∈ h) (result : RunEnd)
    (c : Coordinator) :
    Steps u (c.desk u h) ((finish run result c).1.desk u
      (h ++ .heard (.finished run result) :: (finish run result c).2.map .did)) := by
  by_cases ht : ∃ d, c.documents.get? run.url = some d ∧ d.run.occupant = some run.ticket
  · obtain ⟨d, hd, ht⟩ := ht
    rw [finish_of_current hd ht]
    have hquiet : ∀ e ∈ (notices run c.health result ++ (c.concluded run result).news).map Entry.did,
        ¬ e.concerns u := by
      rw [List.map_append, List.forall_mem_append]
      exact ⟨not_concerns_notices run c.health result, not_concerns_news _⟩
    by_cases hw : run.url = u
    · subst hw
      have hstep := @Step.ended run.url (c.desk run.url h) d run result _ rfl hm hd ht hquiet
      have hp := published_concluded run result c run.url
      rw [if_pos rfl] at hp
      have hdoc : (c.concluded run result).documents.get? run.url =
          some { d with run := {}, phase := phaseAfterEnd result } := by
        simp [concluded, Coordinator.modify, hd]
      simp only [desk, told, hp, hdoc, List.map_append, List.append_assoc, List.map_cons,
        List.map_nil] at hstep ⊢
      exact .single hstep
    · refine steps_away rfl (Nat.le_refl _) rfl ?_ ?_ ?_
      · simp [told, concluded, Coordinator.modify, Ne.symm hw]
      · rw [told, published_concluded, if_neg (Ne.symm hw)]
      · rw [List.append_assoc (publication run result), List.map_append, List.map_append,
          List.forall_mem_cons, List.forall_mem_append, List.forall_mem_append]
        refine ⟨hw, ⟨?_, hquiet⟩, List.forall_mem_singleton.mpr hw⟩
        rw [publication, List.map_map]
        exact List.forall_mem_map.mpr fun _ _ => hw
  · have hlate : ∀ d, c.documents.get? run.url = some d → d.run.occupant ≠ some run.ticket :=
      fun d hd htd => ht ⟨d, hd, htd⟩
    rw [finish_of_late hlate]
    by_cases hw : run.url = u
    · subst hw
      exact .single (Step.lateRun (k := c.desk run.url h) rfl hm hlate)
    · exact steps_away rfl (Nat.le_refl _) rfl rfl rfl (List.forall_mem_singleton.mpr hw)

theorem steps_stop (c : Coordinator) (h : History) :
    Steps u (c.desk u h) ((stop c).1.desk u
      (h ++ .heard (.command .shutdown) :: (stop c).2.map .did)) := by
  refine .single (Step.stopped (k := c.desk u h) fun e he => ?_)
  rw [List.mem_map] at he
  obtain ⟨f, hf, rfl⟩ := he
  obtain ⟨d, -, hd⟩ := List.mem_flatMap.mp hf
  exact not_concerns_cancel d _ (List.mem_map_of_mem hd)

/-- **Whatever a coordinator hears moves the desk of each document by steps.** -/
theorem steps_handle {m : Message} {h : History} (hm : h.Admits m) (c : Coordinator) :
    Steps u (c.desk u h) ((c.handle m).1.desk u (h ++ .heard m :: (c.handle m).2.map .did)) := by
  cases hs : c.stopped with
  | true =>
    rw [handle_of_stopped hs]
    exact .single (Step.deaf (k := c.desk u h) hs hm)
  | false =>
    rw [handle_of_running hs]
    cases m with
    | command command =>
      cases command with
      | opened d => exact steps_openDocument hs d h
      | changed w version text => exact steps_changeDocument w version text c h
      | saved w text => exact steps_saveDocument w text c h
      | closed w => exact steps_closeDocument w c h
      | focused w =>
        show Steps u _ ((obey (.focused w) c).1.desk u (h ++ _ :: (obey (.focused w) c).2.map .did))
        rw [focus_eq]
        exact steps_away rfl (Nat.le_refl _) rfl rfl rfl
          (List.forall_mem_cons.mpr ⟨id, not_concerns_news _⟩)
      | configured s => exact steps_configure s c h
      | rooted workspace =>
        exact steps_away rfl (Nat.le_refl _) rfl rfl rfl (List.forall_mem_singleton.mpr id)
      | shutdown => exact steps_stop c h
    | elapsed w t => exact steps_elapse w t c h
    | finished run result => exact steps_finish hm result c

def blank (settings : Settings) : Desk :=
  { settings, issued := 0, stopped := false, document := none, diagnostics := [], history := [] }

theorem steps_takeUp (hrun : c.stopped = false) (ds : List Document) (h : History) :
    Steps u (c.desk u h)
      ((Reaction.andThen (.sequence (ds.map openDocument)) refresh c).1.desk u (h ++ c.takeUp ds)) := by
  induction ds generalizing c h with
  | nil =>
    show Steps u _ ((refresh c).1.desk u (h ++ (refresh c).2.map .did))
    rw [refresh_eq]
    exact moves_told c h
  | cons d ds ih =>
    have hfirst := steps_openDocument (u := u) hrun d h
    have hrest := ih ((openDocument_stopped d c).trans hrun) (h ++ .heard (.command (.opened d)) ::
      (openDocument d c).2.map .did)
    rw [List.append_assoc] at hrest
    exact hfirst.trans hrest

end Desk

/-- **The desk of each document comes about by steps.** -/
theorem Life.steps {start : Launch} {c : Coordinator} {h : History} (hl : Life start c h) (u : Url) :
    Desk.Steps u (.blank start.settings) (c.desk u h) := by
  induction hl with
  | launched =>
    exact Desk.steps_takeUp (c := { settings := start.settings, workspace := start.workspace }) rfl
      start.documents []
  | hears _ hm ih => exact ih.trans (Desk.steps_handle hm _)

/-- What holds of a blank desk and is kept by each step holds of every desk in every life. -/
theorem Life.desk_induction {start : Launch} {c : Coordinator} {h : History} {u : Url}
    {P : Desk → Prop} (hl : Life start c h) (hblank : P (.blank start.settings))
    (hstep : ∀ k k', P k → Desk.Step u k k' → P k') : P (c.desk u h) := by
  have hsteps := hl.steps u
  generalize c.desk u h = k at hsteps
  induction hsteps with
  | refl => exact hblank
  | tail _ hk ih => exact hstep _ _ ih hk

end WorkflowLint

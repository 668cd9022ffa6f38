import WorkflowLint.Proofs.Coordinator.Desk
import WorkflowLint.Proofs.Coordinator.Screen
import Mathlib.Data.List.Basic
/-!
# What the host knows

While a coordinator runs, it holds what the host gave it last, and the host was told what it holds:
the settings (`Life.settings_eq`), each open document with its version and text (`Life.sheet_eq`),
and each document's diagnostics (`Life.published_eq`). So the state of a coordinator can be read off
its history.
-/

namespace WorkflowLint

/-! ## Entries that do not concern a document -/

namespace Entry

variable {u : Url} {e : Entry}

theorem settings?_of_not_concerns (he : ¬ e.concerns u) : e.settings? = none := by
  unfold settings?
  split
  · exact absurd trivial he
  · rfl

theorem opening?_of_not_concerns (he : ¬ e.concerns u) : e.opening? u = none := by
  unfold opening?
  split
  · exact if_neg he
  · rfl

theorem published?_of_not_concerns (he : ¬ e.concerns u) : e.published? u = none := by
  unfold published?
  split
  · exact if_neg he
  · rfl

theorem revise_of_not_concerns (he : ¬ e.concerns u) (o : Option Document) : e.revise u o = o := by
  unfold revise
  split
  all_goals first | exact if_neg he | rfl

end Entry

namespace History

variable {u : Url} {es : History}

theorem last?_settings?_of_silent (hes : ∀ e ∈ es, ¬ e.concerns u) :
    last? Entry.settings? es = none :=
  last?_of_none fun e he => Entry.settings?_of_not_concerns (hes e he)

theorem last?_published?_of_silent (hes : ∀ e ∈ es, ¬ e.concerns u) :
    last? (Entry.published? u) es = none :=
  last?_of_none fun e he => Entry.published?_of_not_concerns (hes e he)

theorem foldl_revise_of_silent (hes : ∀ e ∈ es, ¬ e.concerns u) (o : Option Document) :
    es.foldl (Entry.revise u) o = o := by
  induction es generalizing o with
  | nil => rfl
  | cons e es ih =>
    rw [List.foldl_cons, Entry.revise_of_not_concerns (hes e (by simp))]
    exact ih (fun e' he' => hes e' (by simp [he'])) o

@[simp] theorem last?_settings?_did (es : List Effect) :
    last? Entry.settings? (es.map .did) = none :=
  last?_did (fun _ => rfl) es

@[simp] theorem foldl_revise_did (es : List Effect) (o : Option Document) :
    (es.map Entry.did).foldl (Entry.revise u) o = o := by
  rw [List.foldl_map]
  exact List.foldl_fixed' (fun _ => rfl) es

@[simp] theorem last?_published?_cancelRun (d : OpenDocument) :
    last? (Entry.published? u) (d.cancelRun.map .did) = none :=
  last?_published?_of_silent (Desk.not_concerns_cancelRun d)

@[simp] theorem last?_published?_stopPause (d : OpenDocument) :
    last? (Entry.published? u) (d.stopPause.map .did) = none :=
  last?_published?_of_silent (Desk.not_concerns_stopPause d)

@[simp] theorem last?_published?_cancel (d : OpenDocument) :
    last? (Entry.published? u) (d.cancel.map .did) = none :=
  last?_published?_of_silent (Desk.not_concerns_cancel d)

@[simp] theorem last?_published?_publication (run : Run) (result : RunEnd) :
    last? (Entry.published? run.url) ((Coordinator.publication run result).map .did) =
      Coordinator.told? run result := by
  cases ht : Coordinator.told? run result <;> simp [Coordinator.publication, ht, Entry.published?]

@[simp] theorem last?_published?_farewell (d : OpenDocument) :
    last? (Entry.published? u) ((Coordinator.farewell u d).map .did) =
      if d.qualifies then some [] else none := by
  cases hq : d.qualifies <;> simp [Coordinator.farewell, hq, Entry.published?]

end History

/-! ## The desk -/

namespace Desk

/-- What a desk has of what the host says of a document. -/
def sheet (d : OpenDocument) : Int × String × Bool := (d.version, d.text, d.qualifies)

/-- The same of a document as the host describes it. -/
def sheetOf (d : Document) : Int × String × Bool :=
  (d.version, d.text, Workflow.qualifies d.url d.language)

theorem exists_of_sheet {o? : Option OpenDocument} {d : Document}
    (ho : o?.map sheet = some (sheetOf d)) : ∃ o, o? = some o ∧ o.version = d.version ∧
      o.text = d.text ∧ o.qualifies = d.isWorkflow := by
  obtain ⟨o, rfl, ho⟩ := Option.map_eq_some_iff.mp ho
  exact ⟨o, rfl, by simpa [sheet, sheetOf, Document.isWorkflow] using ho⟩

variable {start : Settings} {u : Url} {k k' : Desk}

theorem settings_step (hk : k.stopped = false → k.settings = History.settings start k.history)
    (hs : Step u k k') (hrun : k'.stopped = false) :
    k'.settings = History.settings start k'.history := by
  cases hs with
  | away _ hes =>
    simpa [History.settings, History.last?_settings?_of_silent hes] using hk hrun
  | deaf hstop => exact absurd (hstop.symm.trans hrun) Bool.noConfusion
  | configured => simp [History.settings, Entry.settings?]
  | retired _ _ _ hes =>
    simpa [History.settings, History.last?_settings?_of_silent hes, Entry.settings?] using hk hrun
  | ended _ _ _ _ hes =>
    simpa [History.settings, History.last?_settings?_of_silent hes, Entry.settings?] using hk hrun
  | stopped => exact absurd hrun Bool.noConfusion
  | _ => simpa [History.settings, Entry.settings?] using hk hrun

theorem map_sheet {o : Option OpenDocument} {p : Option Document} {f : OpenDocument → OpenDocument}
    {g : Document → Document} (ho : o.map sheet = p.map sheetOf)
    (hfg : ∀ d e, sheet d = sheetOf e → sheet (f d) = sheetOf (g e)) :
    (o.map f).map sheet = (p.map g).map sheetOf := by
  cases o with
  | none =>
    cases p with
    | none => rfl
    | some e => cases ho
  | some d =>
    cases p with
    | none => cases ho
    | some e => exact congrArg some (hfg d e (Option.some.inj ho))

theorem document_step
    (hk : k.stopped = false →
      k.document.map sheet = (History.document? u k.history).map sheetOf)
    (hs : Step u k k') (hrun : k'.stopped = false) :
    k'.document.map sheet = (History.document? u k'.history).map sheetOf := by
  cases hs with
  | away _ hes =>
    simpa [History.document?, List.foldl_append, History.foldl_revise_of_silent hes] using hk hrun
  | deaf hstop => exact absurd (hstop.symm.trans hrun) Bool.noConfusion
  | opened _ hd =>
    simp [History.document?, List.foldl_append, Entry.revise, hd, sheet, sheetOf, Coordinator.placed]
  | @changed version text =>
    have hsheet := map_sheet (hk hrun)
      (f := fun d => { d with version, text }) (g := fun d => { d with version, text })
      (fun d e he => by simp_all [sheet, sheetOf])
    simpa [History.document?, List.foldl_append, Entry.revise] using hsheet
  | @saved text =>
    have hsheet := map_sheet (hk hrun)
      (f := fun d => { d with text := text.getD d.text })
      (g := fun d => { d with text := text.getD d.text })
      (fun d e he => by simp_all [sheet, sheetOf])
    simpa [History.document?, List.foldl_append, Entry.revise] using hsheet
  | closed | missing => simp_all [History.document?, List.foldl_append, Entry.revise]
  | configured | lateTimer | lateRun =>
    simpa [History.document?, List.foldl_append, Entry.revise] using hk hrun
  | scheduled hd | unpaused hd | begun hd | elapsed hd =>
    have hsheet := hk hrun
    rw [hd] at hsheet
    simpa [History.document?, List.foldl_append, Entry.revise, sheet] using hsheet
  | retired hd _ _ hes =>
    have hsheet := hk hrun
    rw [hd] at hsheet
    simpa [History.document?, List.foldl_append, Entry.revise, History.foldl_revise_of_silent hes,
      sheet] using hsheet
  | ended _ _ hd _ hes =>
    have hsheet := hk hrun
    rw [hd] at hsheet
    simpa [History.document?, List.foldl_append, Entry.revise, History.foldl_revise_of_silent hes,
      sheet] using hsheet
  | stopped => exact absurd hrun Bool.noConfusion

theorem diagnostics_step
    (hk : k.stopped = false → k.diagnostics = History.lastPublished u k.history)
    (hs : Step u k k') (hrun : k'.stopped = false) :
    k'.diagnostics = History.lastPublished u k'.history := by
  cases hs with
  | away _ hes =>
    simpa [History.lastPublished, History.last?_published?_of_silent hes] using hk hrun
  | deaf hstop => exact absurd (hstop.symm.trans hrun) Bool.noConfusion
  | @opened d _ hd =>
    have hsilent : History.last? (Entry.published? u)
        ((k.document.elim [] OpenDocument.cancel).map Entry.did) = none := by
      cases k.document with
      | none => rfl
      | some old => exact History.last?_published?_cancel old
    simpa [History.lastPublished, Entry.published?, hsilent] using hk hrun
  | @closed d hd =>
    cases hq : d.qualifies with
    | false => simpa [History.lastPublished, Entry.published?, hq] using hk hrun
    | true => simp [History.lastPublished, hq]
  | retired _ _ _ hes =>
    simp [History.lastPublished, Entry.published?, History.last?_published?_of_silent hes]
  | @ended d run result es hu _ _ _ hes =>
    subst hu
    have hold := hk hrun
    cases ht : Coordinator.told? run result with
    | none =>
      simpa [History.lastPublished, Entry.published?, History.last?_published?_of_silent hes, ht]
        using hold
    | some ds =>
      simp [History.lastPublished, Entry.published?, History.last?_published?_of_silent hes, ht]
  | stopped => exact absurd hrun Bool.noConfusion
  | _ => simpa [History.lastPublished, Entry.published?] using hk hrun

end Desk

theorem Life.settings_eq {start : Launch} {c : Coordinator} {h : History} (hl : Life start c h)
    (hrun : c.stopped = false) : c.settings = h.settings start.settings :=
  hl.desk_induction (u := default) (P := fun k => k.stopped = false →
    k.settings = History.settings start.settings k.history)
    (fun _ => rfl) (fun _ _ => Desk.settings_step) hrun

theorem Life.sheet_eq {start : Launch} {c : Coordinator} {h : History} (hl : Life start c h)
    (hrun : c.stopped = false) (u : Url) :
    (c.documents.get? u).map Desk.sheet = (h.document? u).map Desk.sheetOf :=
  hl.desk_induction (P := fun k => k.stopped = false →
    k.document.map Desk.sheet = (History.document? u k.history).map Desk.sheetOf)
    (fun _ => rfl) (fun _ _ => Desk.document_step) hrun

/-- The diagnostics of a document are those the host was told last. -/
theorem Life.published_eq {start : Launch} {c : Coordinator} {h : History} (hl : Life start c h)
    (hrun : c.stopped = false) (u : Url) : c.published.get u = h.lastPublished u := by
  rw [hl.published_of_running hrun]
  exact h.get_screen u

end WorkflowLint

import WorkflowLint.Coordinator.Handler
/-!
# What reactions come to

One equation or case distinction for each reaction of the coordinator: the state after it and all
effects, with nothing left to unfold. Every later proof goes by these.
-/

namespace WorkflowLint

namespace Reaction

@[simp] theorem skip_apply (c : Coordinator) : skip c = (c, []) := rfl

@[simp] theorem change_apply (f : Coordinator → Coordinator) (c : Coordinator) :
    change f c = (f c, []) := rfl

@[simp] theorem act_apply (es : List Effect) (c : Coordinator) : act es c = (c, es) := rfl

@[simp] theorem tell_apply (e : Event) (c : Coordinator) : tell e c = (c, [.emit e]) := rfl

@[simp] theorem andThen_apply (r s : Reaction) (c : Coordinator) :
    r.andThen s c = ((s (r c).1).1, (r c).2 ++ (s (r c).1).2) := rfl

@[simp] theorem sequence_nil : sequence [] = skip := rfl

@[simp] theorem sequence_cons (r : Reaction) (rs : List Reaction) :
    sequence (r :: rs) = r.andThen (sequence rs) := rfl

end Reaction

namespace Coordinator

open Reaction

/-- What telling the status comes to, if the host does not know it. -/
def news (c : Coordinator) : List Effect :=
  if c.shown = some c.indicator then [] else [.emit (.status c.indicator)]

/-- The state in which the host knows the status. -/
def told (c : Coordinator) : Coordinator := { c with shown := some c.indicator }

theorem refresh_eq (c : Coordinator) : refresh c = (c.told, c.news) := by
  by_cases hc : c.shown = some c.indicator
  · rw [refresh, news, told, if_pos hc, if_pos hc, ← hc]
  · rw [refresh, news, told, if_neg hc, if_neg hc]

/-- The state in which a document has no run and no diagnostics. -/
def retired (w : Url) (c : Coordinator) : Coordinator :=
  { c.modify w fun d => { d with run := {}, phase := .idle } with
    published := c.published.remove w }

theorem retire_eq (w : Url) (d : OpenDocument) (c : Coordinator) :
    retire w d c = ((c.retired w).told, d.cancelRun ++ .emit (.published w none []) ::
      (c.retired w).news ++ [.emit (.settled w)]) := by
  simp [retire, clear, refresh_eq, retired, modify]

/-- A check does nothing, or clears the document when checking is off, or begins a run. -/
theorem check_cases (w : Url) (c : Coordinator) :
    (check w c = (c, []) ∧ ∀ d, c.documents.get? w = some d → d.qualifies = true →
      c.settings.enabled = true ∧ w.toPath? = none) ∨
    (∃ d, c.documents.get? w = some d ∧ d.qualifies = true ∧ c.settings.enabled = false ∧
      check w c = retire w d c) ∨
    (∃ d path, c.documents.get? w = some d ∧ d.qualifies = true ∧ c.settings.enabled = true ∧
      w.toPath? = some path ∧
      check w c = ((begin w d path c).1.told, (begin w d path c).2 ++ (begin w d path c).1.news)) := by
  cases hd : c.documents.get? w with
  | none => exact .inl ⟨by rw [check, hd]; rfl, by simp⟩
  | some d =>
    cases hq : d.qualifies with
    | false =>
      refine .inl ⟨by simp [check, hd, hq, skip], fun d' hd' hq' => ?_⟩
      rw [← Option.some.inj hd', hq] at hq'
      exact absurd hq' Bool.false_ne_true
    | true =>
      cases hon : c.settings.enabled with
      | false => exact .inr (.inl ⟨d, rfl, hq, rfl, by simp [check, hd, hq, hon]⟩)
      | true =>
        cases hp : w.toPath? with
        | none => exact .inl ⟨by simp [check, hd, hq, hon, hp, skip], fun _ _ _ => ⟨rfl, rfl⟩⟩
        | some path =>
          refine .inr (.inr ⟨d, path, rfl, hq, rfl, rfl, ?_⟩)
          have h : check w c = (begin w d path).andThen refresh c := by simp [check, hd, hq, hon, hp]
          rw [h, andThen_apply, refresh_eq]

theorem check_stopped (w : Url) (c : Coordinator) : (check w c).1.stopped = c.stopped := by
  obtain ⟨hc, -⟩ | ⟨d, -, -, -, hc⟩ | ⟨d, path, -, -, -, -, hc⟩ := check_cases w c
  · rw [hc]
  · rw [hc, retire_eq]
    rfl
  · rw [hc]
    rfl

/-- An open document as it is put down when the host opens it. -/
def placed (d : Document) : OpenDocument :=
  { version := d.version, text := d.text, qualifies := Workflow.qualifies d.url d.language }

/-- The state with a document put down in place of any other. -/
def place (d : Document) (c : Coordinator) : Coordinator :=
  { c with documents := c.documents.insert d.url (placed d) }

/-- What opening a document gives up. -/
def replaced (d : Document) (c : Coordinator) : List Effect :=
  (c.documents.get? d.url).elim [] OpenDocument.cancel

theorem openDocument_eq (d : Document) (c : Coordinator) :
    openDocument d c = ((check d.url (c.place d)).1, c.replaced d ++ (check d.url (c.place d)).2) := by
  have hcheck : (if Workflow.qualifies d.url d.language then check d.url else skip) (c.place d) =
      check d.url (c.place d) := by
    split
    · rfl
    · rename_i hq
      simp [check, place, placed, hq]
  rw [← hcheck, replaced]
  cases hd : c.documents.get? d.url <;> simp [openDocument, hd, place, placed]

theorem openDocument_stopped (d : Document) (c : Coordinator) :
    (openDocument d c).1.stopped = c.stopped := by
  rw [openDocument_eq]
  exact check_stopped d.url (c.place d)

theorem endPause_of_none {w : Url} {c : Coordinator} (hd : c.documents.get? w = none) :
    endPause w c = (c, []) := by
  simp [endPause, hd]

theorem endPause_of_some {w : Url} {d : OpenDocument} {c : Coordinator}
    (hd : c.documents.get? w = some d) :
    endPause w c = (c.modify w fun d => { d with pause := {} }, d.stopPause) := by
  simp [endPause, hd]

def edited (w : Url) (version : Int) (text : String) : Coordinator → Coordinator :=
  modify w fun d => { d with version, text }

theorem changeDocument_of_none {w : Url} {c : Coordinator} (hd : c.documents.get? w = none)
    (version : Int) (text : String) : changeDocument w version text c = (c, []) := by
  simp [changeDocument, hd]

theorem changeDocument_of_some {w : Url} {d : OpenDocument} {c : Coordinator}
    (hd : c.documents.get? w = some d) (version : Int) (text : String) :
    changeDocument w version text c =
      if d.qualifies && c.settings.lintsOnType then startPause w d (c.edited w version text)
      else (c.edited w version text, []) := by
  cases hq : d.qualifies && c.settings.lintsOnType <;> simp [changeDocument, hd, hq, edited]

def saved (w : Url) (text : Option String) : Coordinator → Coordinator :=
  modify w fun d => { d with text := text.getD d.text }

theorem saveDocument_eq (w : Url) (text : Option String) (c : Coordinator) :
    saveDocument w text c = (endPause w).andThen (check w) (c.saved w text) := by
  simp [saveDocument, saved]

def without (w : Url) (d : OpenDocument) (c : Coordinator) : Coordinator :=
  { c with
    documents := c.documents.erase w
    published := if d.qualifies then c.published.remove w else c.published }

/-- What is told of a document that is closed. -/
def farewell (w : Url) (d : OpenDocument) : List Effect :=
  if d.qualifies then [.emit (.published w none [])] else []

theorem closeDocument_of_none {w : Url} {c : Coordinator} (hd : c.documents.get? w = none) :
    closeDocument w c = (c, []) := by
  simp [closeDocument, hd]

theorem closeDocument_of_some {w : Url} {d : OpenDocument} {c : Coordinator}
    (hd : c.documents.get? w = some d) :
    closeDocument w c =
      ((c.without w d).told, d.cancel ++ farewell w d ++ (c.without w d).news) := by
  cases hq : d.qualifies <;>
    simp [closeDocument, hd, hq, without, farewell, clear, refresh_eq]

theorem configure_eq (s : Settings) (c : Coordinator) :
    configure s c =
      sequence (c.workflowUrls.map fun w => (endPause w).andThen (check w)) { c with settings := s } := by
  simp [configure]

/-! ## Ends -/

/-- The diagnostics that are told when a run ends, if any. -/
def told? (run : Run) : RunEnd → Option (List Diagnostic)
  | .completed r => diagnosticsOf? run r.outcome
  | .crashed _ => none

def phaseAfterEnd : RunEnd → Phase
  | .completed r => phaseAfter r.outcome
  | .crashed _ => .failed

def healthAfterEnd (now : Health) : RunEnd → Health
  | .completed r => (healthAfter? r.outcome).getD now
  | .crashed _ => now

def publication (run : Run) (result : RunEnd) : List Effect :=
  (told? run result).toList.map fun ds => .emit (.published run.url (some run.version) ds)

/-- The notice of an outcome that is no matter of health, or makes it worse. -/
def noticeAfter? (now : Health) (o : Outcome) : Option Notice :=
  if (healthAfter? o).all now.worsens then noticeOf? o else none

/-- The notices given when a run ended. -/
def notices (run : Run) (now : Health) : RunEnd → List Effect
  | .completed r => (noticeAfter? now r.outcome).toList.map fun n => .emit (.notice n)
  | .crashed message => [.emit (.notice (crashNotice run message))]

/-- The state in which a run is over. -/
def concluded (run : Run) (result : RunEnd) (c : Coordinator) : Coordinator :=
  { c.modify run.url fun d => { d with run := {}, phase := phaseAfterEnd result } with
    published := (told? run result).elim c.published (c.published.replace run.url)
    health := healthAfterEnd c.health result }

theorem report_eq (o : Outcome) (c : Coordinator) :
    report o c = ({ c with health := (healthAfter? o).getD c.health },
      (noticeAfter? c.health o).toList.map fun n => .emit (.notice n)) := by
  cases hn : noticeOf? o <;> cases hh : healthAfter? o with
  | none => simp [report, noticeAfter?, hn, hh]
  | some next => cases hw : c.health.worsens next <;> simp [report, noticeAfter?, hn, hh, hw]

theorem conclude_eq (run : Run) (r : RunResult) (c : Coordinator) :
    conclude run r.outcome c =
      ({ c with
          published := (told? run (.completed r)).elim c.published (c.published.replace run.url)
          health := healthAfterEnd c.health (.completed r) },
        publication run (.completed r) ++ notices run c.health (.completed r)) := by
  cases hd : diagnosticsOf? run r.outcome <;>
    simp [conclude, report_eq, hd, publish, told?, healthAfterEnd, publication, notices]

theorem finish_of_late {run : Run} {c : Coordinator}
    (ht : ∀ d, c.documents.get? run.url = some d → d.run.occupant ≠ some run.ticket)
    (result : RunEnd) : finish run result c = (c, []) := by
  cases hd : c.documents.get? run.url with
  | none => simp [finish, hd]
  | some d =>
    have hs : d.run.settle? run.ticket = none := by
      rw [Slot.settle?, Slot.holds, decide_eq_false (ht d hd)]
      rfl
    simp [finish, hd, hs]

theorem finish_of_current {run : Run} {d : OpenDocument} {c : Coordinator}
    (hd : c.documents.get? run.url = some d) (ht : d.run.occupant = some run.ticket)
    (result : RunEnd) :
    finish run result c = ((c.concluded run result).told,
      publication run result ++ notices run c.health result ++ (c.concluded run result).news ++
        [.emit (.settled run.url)]) := by
  have hs : d.run.settle? run.ticket = some {} := Slot.settle?_eq_some_iff.mpr ⟨ht, rfl⟩
  cases result with
  | completed r => simp [finish, hd, hs, conclude_eq, refresh_eq, concluded, modify, phaseAfterEnd]
  | crashed message =>
    simp [finish, hd, hs, refresh_eq, concluded, modify, phaseAfterEnd, told?, publication, notices,
      healthAfterEnd]

theorem elapse_of_late {w : Url} {t : Ticket} {c : Coordinator}
    (ht : ∀ d, c.documents.get? w = some d → d.pause.occupant ≠ some t) :
    elapse w t c = (c, []) := by
  cases hd : c.documents.get? w with
  | none => simp [elapse, hd]
  | some d =>
    have hs : d.pause.settle? t = none := by
      rw [Slot.settle?, Slot.holds, decide_eq_false (ht d hd)]
      rfl
    simp [elapse, hd, hs]

theorem elapse_of_current {w : Url} {t : Ticket} {d : OpenDocument} {c : Coordinator}
    (hd : c.documents.get? w = some d) (ht : d.pause.occupant = some t) :
    elapse w t c = check w (c.modify w fun d => { d with pause := {} }) := by
  have hs : d.pause.settle? t = some {} := Slot.settle?_eq_some_iff.mpr ⟨ht, rfl⟩
  simp [elapse, hd, hs]

theorem elapse_cases (w : Url) (t : Ticket) (c : Coordinator) :
    (∃ d, c.documents.get? w = some d ∧ d.pause.occupant = some t ∧
      elapse w t c = check w (c.modify w fun d => { d with pause := {} })) ∨
    (elapse w t c = (c, []) ∧ ∀ d, c.documents.get? w = some d → d.pause.occupant ≠ some t) := by
  by_cases ht : ∃ d, c.documents.get? w = some d ∧ d.pause.occupant = some t
  · obtain ⟨d, hd, ht⟩ := ht
    exact .inl ⟨d, hd, ht, elapse_of_current hd ht⟩
  · have hlate : ∀ d, c.documents.get? w = some d → d.pause.occupant ≠ some t :=
      fun d hd htd => ht ⟨d, hd, htd⟩
    exact .inr ⟨elapse_of_late hlate, hlate⟩

theorem handle_of_stopped {c : Coordinator} (hs : c.stopped = true) (m : Message) :
    handle m c = (c, []) := by
  simp [handle, hs]

theorem stopped_of_handle {c : Coordinator} {m : Message} (hrun : (c.handle m).1.stopped = false) :
    c.stopped = false := by
  cases hs : c.stopped with
  | false => rfl
  | true =>
    rw [handle_of_stopped hs] at hrun
    exact absurd (hs.symm.trans hrun) Bool.noConfusion

theorem handle_of_running {c : Coordinator} (hs : c.stopped = false) (m : Message) :
    handle m c = match m with
      | .command command => obey command c
      | .elapsed w t => elapse w t c
      | .finished run result => finish run result c := by
  cases m <;> simp [handle, hs]

theorem focus_eq (w : Option Url) (c : Coordinator) :
    obey (.focused w) c = (({ c with active := w } : Coordinator).told,
      ({ c with active := w } : Coordinator).news) := by
  simp [obey, refresh_eq]

end Coordinator

end WorkflowLint

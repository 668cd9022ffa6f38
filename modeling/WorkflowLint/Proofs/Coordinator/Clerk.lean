import WorkflowLint.Proofs.Coordinator.Life
import WorkflowLint.Proofs.Coordinator.Reactions
/-!
# A clerk for each document

A coordinator works as if each document had a clerk of its own. The clerk knows the settings and the
roots, which are for all, and one document with its diagnostics; `Clerk.handle` is what it does
about a message that is for it. The reactions of the coordinator are tied to the clerks by
`Coordinator.Tends`: a reaction about one document does what the clerk of the document does, in the
same order, and leaves the other clerks alone but for the number of tickets.

Only the status and the notices are of no document, so no clerk deals with them.
-/

namespace WorkflowLint

/-- Whether a message is about a document, or about all. -/
def Message.isFor (u : Url) : Message → Bool
  | .command (.opened d) => d.url = u
  | .command (.changed w _ _) => w = u
  | .command (.saved w _) => w = u
  | .command (.closed w) => w = u
  | .command (.focused _) => false
  | .command (.configured _) => true
  | .command (.rooted _) => true
  | .command .shutdown => true
  | .elapsed w _ => w = u
  | .finished run _ => run.url = u

/-- Whether an effect is of a document, and not of the session. -/
def Effect.isOfDocument : Effect → Bool
  | .emit (.status _) => false
  | .emit (.notice _) => false
  | _ => true

/-- What a coordinator has for one document. -/
structure Clerk where
  settings : Settings
  workspace : Workspace
  /-- The number of tickets handed out, for all documents. -/
  issued : Nat
  stopped : Bool
  document : Option OpenDocument
  diagnostics : List Diagnostic

def Coordinator.clerk (c : Coordinator) (u : Url) : Clerk :=
  { settings := c.settings
    workspace := c.workspace
    issued := c.issued
    stopped := c.stopped
    document := c.documents.get? u
    diagnostics := c.published.get u }

namespace Clerk

/-- Tickets were handed out for other documents. -/
def wait (n : Nat) (k : Clerk) : Clerk := { k with issued := n }

@[simp] theorem wait_wait (m n : Nat) (k : Clerk) : (k.wait m).wait n = k.wait n := rfl

/-! ## What a clerk does -/

/-- One thing after another. -/
def andThen (x : Clerk × List Effect) (r : Clerk → Clerk × List Effect) : Clerk × List Effect :=
  ((r x.1).1, x.2 ++ (r x.1).2)

def nextRun (u : Url) (d : OpenDocument) (path : Path) (k : Clerk) : Run where
  url := u
  ticket := ⟨k.issued⟩
  version := d.version
  request := ({ settings := k.settings, workspace := k.workspace } : Coordinator).request u d path

def begin (u : Url) (d : OpenDocument) (path : Path) (k : Clerk) : Clerk × List Effect :=
  ({ k with
      issued := k.issued + 1
      document := some { d with run := ⟨some ⟨k.issued⟩⟩, phase := .running } },
    d.cancelRun ++ [.start (k.nextRun u d path)])

/-- Cancel the run and clear the document. -/
def retire (u : Url) (d : OpenDocument) (k : Clerk) : Clerk × List Effect :=
  ({ k with document := some { d with run := {}, phase := .idle }, diagnostics := [] },
    d.cancelRun ++ [.emit (.published u none []), .emit (.settled u)])

/-- Check the document, if it is open and a workflow file. -/
def check (u : Url) (k : Clerk) : Clerk × List Effect :=
  match k.document with
  | none => (k, [])
  | some d =>
    if !d.qualifies then (k, [])
    else if !k.settings.enabled then k.retire u d
    else
      match u.toPath? with
      | none => (k, [])
      | some path => k.begin u d path

def endPause (k : Clerk) : Clerk × List Effect :=
  match k.document with
  | none => (k, [])
  | some d => ({ k with document := some { d with pause := {} } }, d.stopPause)

/-- Take down what the host says of the document. -/
def revise (f : OpenDocument → OpenDocument) (k : Clerk) : Clerk :=
  { k with document := k.document.map f }

/-- Put a document down in place of any other. -/
def place (d : Document) (k : Clerk) : Clerk × List Effect :=
  ({ k with document := some (Coordinator.placed d) }, k.document.elim [] OpenDocument.cancel)

def startPause (u : Url) (k : Clerk) : Clerk × List Effect :=
  match k.document with
  | none => (k, [])
  | some d =>
    if d.qualifies && k.settings.lintsOnType then
      ({ k with issued := k.issued + 1, document := some { d with pause := ⟨some ⟨k.issued⟩⟩ } },
        d.stopPause ++ [.startTimer u ⟨k.issued⟩ k.settings.debounce])
    else (k, [])

def close (u : Url) (k : Clerk) : Clerk × List Effect :=
  match k.document with
  | none => (k, [])
  | some d =>
    ({ k with document := none, diagnostics := if d.qualifies then [] else k.diagnostics },
      d.cancel ++ Coordinator.farewell u d)

/-- End the pause and check, if the document is a workflow file. -/
def tidy (u : Url) (k : Clerk) : Clerk × List Effect :=
  if k.document.any (·.qualifies) then andThen k.endPause (check u) else (k, [])

def stop (k : Clerk) : Clerk × List Effect :=
  ({ k with stopped := true, document := none, diagnostics := [] },
    k.document.elim [] OpenDocument.cancel)

def elapse (u : Url) (t : Ticket) (k : Clerk) : Clerk × List Effect :=
  match k.document with
  | none => (k, [])
  | some d =>
    if d.pause.occupant = some t then check u { k with document := some { d with pause := {} } }
    else (k, [])

def finish (run : Run) (result : RunEnd) (k : Clerk) : Clerk × List Effect :=
  match k.document with
  | none => (k, [])
  | some d =>
    if d.run.occupant = some run.ticket then
      ({ k with
          document := some { d with run := {}, phase := Coordinator.phaseAfterEnd result }
          diagnostics := (Coordinator.told? run result).getD k.diagnostics },
        Coordinator.publication run result ++ [.emit (.settled run.url)])
    else (k, [])

def obey (u : Url) (k : Clerk) : Command → Clerk × List Effect
  | .opened d => andThen (k.place d) (check u)
  | .changed _ version text => (k.revise fun d => { d with version, text }).startPause u
  | .saved _ text =>
    andThen (k.revise fun d => { d with text := text.getD d.text }).endPause (check u)
  | .closed _ => k.close u
  | .focused _ => (k, [])
  | .configured s => { k with settings := s }.tidy u
  | .rooted workspace => ({ k with workspace }, [])
  | .shutdown => k.stop

/-- React to a message. Once stopped, nothing is done. -/
def handle (u : Url) (m : Message) (k : Clerk) : Clerk × List Effect :=
  if k.stopped || !m.isFor u then (k, [])
  else
    match m with
    | .command command => k.obey u command
    | .elapsed _ t => k.elapse u t
    | .finished run result => k.finish run result

theorem check_of_idle {u : Url} {k : Clerk}
    (hk : ∀ d, k.document = some d → d.qualifies = true →
      k.settings.enabled = true ∧ u.toPath? = none) : k.check u = (k, []) := by
  rw [check]
  cases hd : k.document with
  | none => rfl
  | some d =>
    cases hq : d.qualifies with
    | false => simp [hq]
    | true => simp [hq, hk d hd hq]

theorem check_of_disabled {u : Url} {k : Clerk} {d : OpenDocument} (hd : k.document = some d)
    (hq : d.qualifies = true) (hoff : k.settings.enabled = false) : k.check u = k.retire u d := by
  simp [check, hd, hq, hoff]

theorem check_of_enabled {u : Url} {k : Clerk} {d : OpenDocument} {path : Path}
    (hd : k.document = some d) (hq : d.qualifies = true) (hon : k.settings.enabled = true)
    (hpath : u.toPath? = some path) : k.check u = k.begin u d path := by
  simp [check, hd, hq, hon, hpath]

theorem elapse_of_late {u : Url} {t : Ticket} {k : Clerk}
    (ht : ∀ d, k.document = some d → d.pause.occupant ≠ some t) : k.elapse u t = (k, []) := by
  rw [elapse]
  cases hd : k.document with
  | none => rfl
  | some d => exact if_neg (ht d hd)

theorem finish_of_late {run : Run} {k : Clerk}
    (ht : ∀ d, k.document = some d → d.run.occupant ≠ some run.ticket) (result : RunEnd) :
    k.finish run result = (k, []) := by
  rw [finish]
  cases hd : k.document with
  | none => rfl
  | some d => exact if_neg (ht d hd)

theorem handle_of_deaf {u : Url} {k : Clerk} {m : Message}
    (hm : ¬ (k.stopped = false ∧ m.isFor u = true)) : k.handle u m = (k, []) := by
  have hdeaf : (k.stopped || !m.isFor u) = true := by
    cases hs : k.stopped with
    | true => rfl
    | false => simpa [hs] using hm
  exact if_pos hdeaf

theorem handle_of_stopped {u : Url} {k : Clerk} (hs : k.stopped = true) (m : Message) :
    k.handle u m = (k, []) :=
  handle_of_deaf fun hm => absurd (hm.1.symm.trans hs) Bool.noConfusion

theorem handle_of_elsewhere {u : Url} {k : Clerk} {m : Message} (hm : m.isFor u = false) :
    k.handle u m = (k, []) :=
  handle_of_deaf fun h => absurd (hm.symm.trans h.2) Bool.noConfusion

theorem handle_of_running {u : Url} {k : Clerk} {m : Message} (hs : k.stopped = false)
    (hm : m.isFor u = true) :
    k.handle u m = match m with
      | .command command => k.obey u command
      | .elapsed _ t => k.elapse u t
      | .finished run result => k.finish run result := by
  cases m <;> simp [handle, hs, hm]

end Clerk

namespace Coordinator

/-! ## The coordinator does what the clerks do -/

/-- A reaction that does about the document `w` what its clerk does, and nothing about others. -/
structure Tends (w : Url) (c : Coordinator) (x : Coordinator × List Effect)
    (y : Clerk × List Effect) : Prop where
  self : x.1.clerk w = y.1
  others : ∀ u, u ≠ w → x.1.clerk u = (c.clerk u).wait x.1.issued
  issued : c.issued ≤ x.1.issued
  effects : x.2.filter Effect.isOfDocument = y.2
  keyed : c.documents.keys.Nodup → x.1.documents.keys.Nodup

variable {w : Url} {c : Coordinator} {d : OpenDocument} {x : Coordinator × List Effect}

theorem Tends.refl (w : Url) (c : Coordinator) : Tends w c (c, []) (c.clerk w, []) where
  self := rfl
  others _ _ := rfl
  issued := Nat.le_refl _
  effects := rfl
  keyed := id

theorem Tends.trans {y z : Clerk × List Effect} {x' : Coordinator × List Effect}
    (hx : Tends w c x y) (hx' : Tends w x.1 x' z) :
    Tends w c (x'.1, x.2 ++ x'.2) (z.1, y.2 ++ z.2) where
  self := hx'.self
  others u hu := by rw [hx'.others u hu, hx.others u hu, Clerk.wait_wait]
  issued := Nat.le_trans hx.issued hx'.issued
  effects := by rw [List.filter_append, hx.effects, hx'.effects]
  keyed := fun hc => hx'.keyed (hx.keyed hc)

theorem Tends.andThen {y : Clerk × List Effect} {r : Reaction}
    {q : Clerk → Clerk × List Effect} (hx : Tends w c x y)
    (hr : Tends w x.1 (r x.1) (q (x.1.clerk w))) :
    Tends w c ((r x.1).1, x.2 ++ (r x.1).2) (Clerk.andThen y q) := by
  have htrans := hx.trans hr
  rw [hx.self] at htrans
  exact htrans

@[simp] theorem filter_news (c : Coordinator) : c.news.filter Effect.isOfDocument = [] := by
  rw [news]
  split <;> rfl

theorem Tends.told {y : Clerk × List Effect} (hx : Tends w c x y) :
    Tends w c (x.1.told, x.2 ++ x.1.news) y where
  self := hx.self
  others := hx.others
  issued := hx.issued
  effects := by rw [List.filter_append, hx.effects, filter_news, List.append_nil]
  keyed := hx.keyed

end Coordinator

/-! ## Effects of documents -/

section Effects

variable (d : OpenDocument) (u : Url) (run : Run) (result : RunEnd)

@[simp] theorem OpenDocument.filter_cancelRun :
    d.cancelRun.filter Effect.isOfDocument = d.cancelRun := by
  rw [cancelRun, List.filter_eq_self]
  exact List.forall_mem_map.mpr fun _ _ => rfl

@[simp] theorem OpenDocument.filter_stopPause :
    d.stopPause.filter Effect.isOfDocument = d.stopPause := by
  rw [stopPause, List.filter_eq_self]
  exact List.forall_mem_map.mpr fun _ _ => rfl

@[simp] theorem OpenDocument.filter_cancel : d.cancel.filter Effect.isOfDocument = d.cancel := by
  rw [cancel, List.filter_append, filter_stopPause, filter_cancelRun]

@[simp] theorem Coordinator.filter_farewell :
    (farewell u d).filter Effect.isOfDocument = farewell u d := by
  cases hq : d.qualifies <;> simp [farewell, hq, Effect.isOfDocument]

@[simp] theorem Coordinator.filter_publication :
    (publication run result).filter Effect.isOfDocument = publication run result := by
  rw [publication, List.filter_eq_self]
  exact List.forall_mem_map.mpr fun _ _ => rfl

@[simp] theorem Coordinator.filter_notices (now : Health) :
    (notices run now result).filter Effect.isOfDocument = [] := by
  rw [List.filter_eq_nil_iff]
  cases result with
  | completed r => exact List.forall_mem_map.mpr fun _ _ => Bool.false_ne_true
  | crashed message => exact List.forall_mem_singleton.mpr Bool.false_ne_true

end Effects

namespace Coordinator

variable {w : Url} {c : Coordinator} {d : OpenDocument}

theorem tends_modify {c' : Coordinator} {es : List Effect} {y : Clerk × List Effect}
    (f : OpenDocument → OpenDocument) (hsettings : c'.settings = c.settings)
    (hworkspace : c'.workspace = c.workspace) (hstopped : c'.stopped = c.stopped)
    (hdocuments : c'.documents = c.documents.modify w f)
    (hpublished : ∀ u, u ≠ w → c'.published.get u = c.published.get u)
    (hissued : c.issued ≤ c'.issued) (hself : c'.clerk w = y.1)
    (hes : es.filter Effect.isOfDocument = y.2) : Tends w c (c', es) y where
  self := hself
  others u hu := by
    simp [clerk, Clerk.wait, hsettings, hworkspace, hstopped, hdocuments, hpublished u hu, hu]
  issued := hissued
  effects := hes
  keyed hc := by rw [hdocuments, Table.keys_modify]; exact hc

theorem tends_begin (hd : c.documents.get? w = some d) (path : Path) :
    Tends w c (begin w d path c) ((c.clerk w).begin w d path) := by
  refine tends_modify (fun d => { d with run := ⟨some ⟨c.issued⟩⟩, phase := .running }) rfl rfl rfl
    rfl (fun _ _ => rfl) (Nat.le_succ _) ?_ ?_
  · simp [clerk, Clerk.begin, modify, hd]
  · show (d.cancelRun ++ [Effect.start _]).filter _ = _
    rw [List.filter_append, OpenDocument.filter_cancelRun]
    rfl

theorem tends_retire (hd : c.documents.get? w = some d) :
    Tends w c (retire w d c) ((c.clerk w).retire w d) := by
  rw [retire_eq]
  refine tends_modify (fun d => { d with run := {}, phase := .idle }) rfl rfl rfl rfl
    (fun u hu => ?_) (Nat.le_refl _) ?_ ?_
  · simp [told, retired, hu]
  · simp [clerk, Clerk.retire, told, retired, modify, hd]
  · simp [Clerk.retire, Effect.isOfDocument, List.filter_cons]

theorem tends_check (w : Url) (c : Coordinator) : Tends w c (check w c) ((c.clerk w).check w) := by
  obtain ⟨hc, hnone⟩ | ⟨d, hd, hq, hoff, hc⟩ | ⟨d, path, hd, hq, hon, hpath, hc⟩ := check_cases w c
  · rw [hc, Clerk.check_of_idle hnone]
    exact .refl w c
  · rw [hc, Clerk.check_of_disabled hd hq hoff]
    exact tends_retire hd
  · rw [hc, Clerk.check_of_enabled hd hq hon hpath]
    exact (tends_begin hd path).told

theorem tends_endPause (w : Url) (c : Coordinator) :
    Tends w c (endPause w c) (c.clerk w).endPause := by
  have hdocument : (c.clerk w).document = c.documents.get? w := rfl
  cases hd : c.documents.get? w with
  | none =>
    rw [endPause_of_none hd, Clerk.endPause, hdocument, hd]
    exact .refl w c
  | some d =>
    rw [endPause_of_some hd, Clerk.endPause, hdocument, hd]
    refine tends_modify (fun d => { d with pause := {} }) rfl rfl rfl rfl (fun _ _ => rfl)
      (Nat.le_refl _) ?_ ?_
    · simp [clerk, modify, hd]
    · exact d.filter_stopPause

theorem tends_revise (w : Url) (f : OpenDocument → OpenDocument) (c : Coordinator) :
    Tends w c (c.modify w f, []) ((c.clerk w).revise f, []) :=
  tends_modify f rfl rfl rfl rfl (fun _ _ => rfl) (Nat.le_refl _)
    (by simp [clerk, modify, Clerk.revise]) rfl

theorem tends_openDocument (d : Document) (c : Coordinator) :
    Tends d.url c (openDocument d c)
      (Clerk.andThen ((c.clerk d.url).place d) (Clerk.check d.url)) := by
  have hplace : Tends d.url c (c.place d, c.replaced d) ((c.clerk d.url).place d) :=
    { self := by simp [clerk, place, Clerk.place]
      others := fun u hu => by simp [clerk, place, Clerk.wait, hu]
      issued := Nat.le_refl _
      effects := by
        rw [replaced, Clerk.place]
        show _ = (c.documents.get? d.url).elim [] OpenDocument.cancel
        cases c.documents.get? d.url with
        | none => rfl
        | some old => exact old.filter_cancel
      keyed := fun hc => Table.nodup_keys_insert hc d.url _ }
  rw [openDocument_eq]
  exact hplace.andThen (tends_check d.url _)

theorem tends_startPause (hd : c.documents.get? w = some d) (old : OpenDocument)
    (hpause : old.pause = d.pause) :
    Tends w c (startPause w old c)
      ({ c.clerk w with
          issued := c.issued + 1
          document := some { d with pause := ⟨some ⟨c.issued⟩⟩ } },
        d.stopPause ++ [.startTimer w ⟨c.issued⟩ c.settings.debounce]) := by
  have hstop : old.stopPause = d.stopPause := by rw [OpenDocument.stopPause, hpause]; rfl
  refine tends_modify (fun d => { d with pause := ⟨some ⟨c.issued⟩⟩ }) rfl rfl rfl rfl
    (fun _ _ => rfl) (Nat.le_succ _) ?_ ?_
  · simp [clerk, modify, hd]
  · show (old.stopPause ++ [Effect.startTimer _ _ _]).filter _ = _
    rw [List.filter_append, OpenDocument.filter_stopPause, hstop]
    rfl

theorem tends_changeDocument (w : Url) (version : Int) (text : String) (c : Coordinator) :
    Tends w c (changeDocument w version text c)
      (((c.clerk w).revise fun d => { d with version, text }).startPause w) := by
  have hdocument : (c.clerk w).document = c.documents.get? w := rfl
  cases hd : c.documents.get? w with
  | none =>
    rw [changeDocument_of_none hd, Clerk.startPause]
    have hsame : (c.clerk w).revise (fun d => { d with version, text }) = c.clerk w := by
      simp [Clerk.revise, clerk, hd]
    rw [hsame, hdocument, hd]
    exact .refl w c
  | some d =>
    have hedit := tends_revise w (fun d => { d with version, text }) c
    have hd' : (c.edited w version text).documents.get? w = some { d with version, text } := by
      simp [edited, modify, hd]
    have hrevised : ((c.clerk w).revise fun d => { d with version, text }).document =
        some { d with version, text } := by
      rw [Clerk.revise, hdocument, hd]
      rfl
    rw [changeDocument_of_some hd, Clerk.startPause, hrevised]
    show Tends w c _ (if d.qualifies && c.settings.lintsOnType then _ else _)
    split
    · have hself : (c.edited w version text).clerk w =
          (c.clerk w).revise fun d => { d with version, text } := hedit.self
      have hpause := hedit.trans (tends_startPause hd' d rfl)
      rw [hself] at hpause
      exact hpause
    · exact hedit

theorem tends_saveDocument (w : Url) (text : Option String) (c : Coordinator) :
    Tends w c (saveDocument w text c)
      (Clerk.andThen ((c.clerk w).revise fun d => { d with text := text.getD d.text }).endPause
        (Clerk.check w)) := by
  have hsave := tends_revise w (fun d => { d with text := text.getD d.text }) c
  have hend := tends_endPause w (c.saved w text)
  have hboth := (hsave.trans hend).andThen (tends_check w _)
  rw [saveDocument_eq]
  have hself : (c.saved w text).clerk w =
      (c.clerk w).revise fun d => { d with text := text.getD d.text } := hsave.self
  rw [hself] at hboth
  exact hboth

theorem tends_closeDocument (w : Url) (c : Coordinator) :
    Tends w c (closeDocument w c) ((c.clerk w).close w) := by
  have hdocument : (c.clerk w).document = c.documents.get? w := rfl
  cases hd : c.documents.get? w with
  | none =>
    rw [closeDocument_of_none hd, Clerk.close, hdocument, hd]
    exact .refl w c
  | some d =>
    have hwithout : Tends w c (c.without w d, d.cancel ++ farewell w d)
        ({ c.clerk w with
            document := none
            diagnostics := if d.qualifies then [] else (c.clerk w).diagnostics },
          d.cancel ++ farewell w d) :=
      { self := by cases hq : d.qualifies <;> simp [clerk, without, hq]
        others := fun u hu => by
          cases hq : d.qualifies <;> simp [clerk, without, Clerk.wait, hq, hu]
        issued := Nat.le_refl _
        effects := by rw [List.filter_append, d.filter_cancel, filter_farewell]
        keyed := fun hc => Table.nodup_keys_erase hc w }
    rw [closeDocument_of_some hd, Clerk.close, hdocument, hd]
    exact hwithout.told

theorem tends_elapse (w : Url) (t : Ticket) (c : Coordinator) :
    Tends w c (elapse w t c) ((c.clerk w).elapse w t) := by
  have hdocument : (c.clerk w).document = c.documents.get? w := rfl
  obtain ⟨d, hd, ht, hc⟩ | ⟨hc, hlate⟩ := elapse_cases w t c
  · have hend := tends_revise w (fun d => { d with pause := {} }) c
    have hboth := hend.andThen (tends_check w _)
    rw [hc, Clerk.elapse, hdocument, hd]
    simpa [ht, Clerk.andThen, Clerk.revise, clerk, hd] using hboth
  · rw [hc, Clerk.elapse_of_late hlate]
    exact .refl w c

theorem tends_finish (run : Run) (result : RunEnd) (c : Coordinator) :
    Tends run.url c (finish run result c) ((c.clerk run.url).finish run result) := by
  have hdocument : (c.clerk run.url).document = c.documents.get? run.url := rfl
  by_cases ht : ∃ d, c.documents.get? run.url = some d ∧ d.run.occupant = some run.ticket
  · obtain ⟨d, hd, ht⟩ := ht
    have hcurrent : (c.clerk run.url).finish run result =
        ({ c.clerk run.url with
            document := some { d with run := {}, phase := phaseAfterEnd result }
            diagnostics := (told? run result).getD (c.clerk run.url).diagnostics },
          publication run result ++ [.emit (.settled run.url)]) := by
      simp [Clerk.finish, hdocument, hd, ht]
    rw [finish_of_current hd ht, hcurrent]
    refine tends_modify (fun d => { d with run := {}, phase := phaseAfterEnd result }) rfl rfl rfl
      rfl (fun u hu => ?_) (Nat.le_refl _) ?_ ?_
    · cases hds : told? run result <;> simp [told, concluded, hds, hu]
    · cases hds : told? run result <;> simp [clerk, told, concluded, modify, hd, hds]
    · simp [Effect.isOfDocument]
  · have hlate : ∀ d, c.documents.get? run.url = some d → d.run.occupant ≠ some run.ticket :=
      fun d hd htd => ht ⟨d, hd, htd⟩
    rw [finish_of_late hlate, Clerk.finish_of_late hlate]
    exact .refl run.url c

end Coordinator

end WorkflowLint

import WorkflowLint.Proofs.Coordinator.Leftovers
/-!
# When the status is out of date

The coordinator tells the status again after all that it depends on, with one exception: opening a
document as something else than a workflow file puts it down idle and tells nothing. If the document
is the active one, the status can be out of date from then on, until something brings it up to date.
`Life.upToDate_iff` says that this is the only way, and when it is one: the status told last was that
of a run or of a failed run, or it was idle and the document, not open, had diagnostics left behind.

The argument goes by reactions. Each of them but the opening, closing and choosing of a document
either brings the status up to date, and this can be seen by an effect, or changes nothing that the
status depends on (`Coordinator.Freshens`).
-/

namespace WorkflowLint

/-- Whether an effect comes with a look at the status. -/
def Effect.refreshes : Effect → Prop
  | .start _ => True
  | .emit (.status _) => True
  | .emit (.settled _) => True
  | _ => False

/-- Whether an entry brings the status up to date while a document is active. -/
def Entry.refreshes (u : Url) : Entry → Prop
  | .heard (.command (.opened d)) => d.url = u ∧ d.isWorkflow = true
  | .heard (.command (.closed w)) => w = u
  | .heard (.command (.focused _)) => True
  | .heard _ => False
  | .did e => e.refreshes

/-- A message opens or closes a document, makes another one active, or ends the session. What
any other message changes, the status follows. -/
inductive Message.Turns : Message → Prop
  | opened (d : Document) : Turns (.command (.opened d))
  | closed (w : Url) : Turns (.command (.closed w))
  | focused (w : Option Url) : Turns (.command (.focused w))
  | shutdown : Turns (.command .shutdown)

namespace History

/-- Opening a document now outdates the status: it is the active one and no workflow file, and the
status is that of a run, or of a failed run, or it is idle while the document, not open, has
diagnostics. -/
def Outdates (h : History) (d : Document) : Prop :=
  d.isWorkflow = false ∧ h.active? = some d.url ∧
    (h.lastStatus? = some .running ∨ h.lastStatus? = some .failed ∨
      (h.lastStatus? = some .idle ∧ h.document? d.url = none ∧ h.lastPublished d.url ≠ []))

/-- The status was outdated, and has not been brought up to date since. -/
def Outdated : History → Prop := Since Outdates fun d e => e.refreshes d.url

end History

namespace Coordinator

open Reaction

/-- The host was told the status last that the state calls for. -/
def UpToDate (c : Coordinator) : Prop := c.shown = some c.indicator

/-- The active document stays, and the status that is shown is the one told last. -/
structure Tells (c : Coordinator) (x : Coordinator × List Effect) : Prop where
  active : x.1.active = c.active
  shown : x.1.shown = (History.lastStatus? (x.2.map .did)).or c.shown

/-- The status is brought up to date, or nothing it depends on changes. -/
structure Freshens (c : Coordinator) (x : Coordinator × List Effect) : Prop extends Tells c x where
  fresh : (x.1.UpToDate ∧ ∃ e ∈ x.2, e.refreshes) ∨
    ((x.1.UpToDate ↔ c.UpToDate) ∧ ∀ e ∈ x.2, ¬ e.refreshes)

variable {c c' : Coordinator} {w : Url} {d : OpenDocument} {x y : Coordinator × List Effect}
  {es fs : List Effect}

theorem lastStatus?_of_quiet (hes : ∀ e ∈ es, ¬ e.refreshes) :
    History.lastStatus? (es.map .did) = none := by
  refine History.last?_of_none (List.forall_mem_map.mpr fun f hf => ?_)
  unfold Entry.status?
  split
  · rename_i i heq
    obtain rfl := Entry.did.inj heq
    exact absurd trivial (hes _ hf)
  · rfl

theorem Tells.trans (hx : Tells c x) (hy : Tells x.1 y) : Tells c (y.1, x.2 ++ y.2) where
  active := hy.active.trans hx.active
  shown := by
    rw [hy.shown, hx.shown, List.map_append, History.lastStatus?, History.lastStatus?,
      History.lastStatus?, History.last?_append, Option.or_assoc]

theorem Freshens.trans (hx : Freshens c x) (hy : Freshens x.1 y) : Freshens c (y.1, x.2 ++ y.2) where
  toTells := hx.toTells.trans hy.toTells
  fresh := by
    rcases hy.fresh with ⟨hnew, e, he, hre⟩ | ⟨hsame, hquiet⟩
    · exact .inl ⟨hnew, e, List.mem_append_right _ he, hre⟩
    · rcases hx.fresh with ⟨hnew, e, he, hre⟩ | ⟨hsame', hquiet'⟩
      · exact .inl ⟨hsame.mpr hnew, e, List.mem_append_left _ he, hre⟩
      · refine .inr ⟨hsame.trans hsame', ?_⟩
        rw [List.forall_mem_append]
        exact ⟨hquiet', hquiet⟩

theorem freshens_of_same (hactive : c'.active = c.active) (hshown : c'.shown = c.shown)
    (hindicator : c'.indicator = c.indicator) (hes : ∀ e ∈ es, ¬ e.refreshes) :
    Freshens c (c', es) where
  active := hactive
  shown := by rw [lastStatus?_of_quiet hes, Option.none_or, hshown]
  fresh := .inr ⟨by rw [UpToDate, UpToDate, hshown, hindicator], hes⟩

theorem Freshens.refl (c : Coordinator) : Freshens c (c, []) :=
  freshens_of_same rfl rfl rfl (by simp)

theorem Freshens.sequence {rs : List Reaction} (hrs : ∀ r ∈ rs, ∀ c, Freshens c (r c)) :
    ∀ c, Freshens c (Reaction.sequence rs c) := by
  induction rs with
  | nil => exact Freshens.refl
  | cons r rs ih =>
    intro c
    exact (hrs r (by simp) c).trans (ih (fun s hs => hrs s (by simp [hs])) _)

theorem upToDate_told (c : Coordinator) : c.told.UpToDate := rfl

theorem shown_told (c : Coordinator) :
    c.told.shown = (History.lastStatus? (c.news.map .did)).or c.shown := by
  by_cases hc : c.shown = some c.indicator
  · rw [news, if_pos hc, told, hc]
    rfl
  · rw [news, if_neg hc]
    rfl

theorem tells_told (hactive : c'.active = c.active) (hshown : c'.shown = c.shown)
    (hes : History.lastStatus? (es.map .did) = none)
    (hfs : History.lastStatus? (fs.map .did) = none) : Tells c (c'.told, es ++ c'.news ++ fs) where
  active := hactive
  shown := by
    rw [shown_told, hshown, List.map_append, List.map_append]
    simp only [History.lastStatus?] at hes hfs ⊢
    rw [History.last?_append, History.last?_append, hes, hfs, Option.none_or, Option.or_none]

theorem freshens_told (hactive : c'.active = c.active) (hshown : c'.shown = c.shown)
    (hes : History.lastStatus? (es.map .did) = none)
    (hfs : History.lastStatus? (fs.map .did) = none) (he : ∃ e ∈ es ++ fs, e.refreshes) :
    Freshens c (c'.told, es ++ c'.news ++ fs) where
  toTells := tells_told hactive hshown hes hfs
  fresh := by
    obtain ⟨e, he, hre⟩ := he
    refine .inl ⟨upToDate_told c', e, ?_, hre⟩
    simp only [List.mem_append] at he ⊢
    tauto

/-! ## Reactions -/

theorem indicator_modify {f : OpenDocument → OpenDocument} (hf : ∀ d, (f d).phase = d.phase)
    (w : Url) (c : Coordinator) : (c.modify w f).indicator = c.indicator := by
  unfold indicator activeDocument modify
  cases hactive : c.active with
  | none => rfl
  | some u =>
    by_cases hu : u = w
    · subst hu
      cases hd : c.documents.get? u <;> simp [hd, hf]
    · simp [hu]

theorem quiet_stopPause (d : OpenDocument) : ∀ e ∈ d.stopPause, ¬ e.refreshes :=
  List.forall_mem_map.mpr fun _ _ => id

theorem quiet_cancelRun (d : OpenDocument) : ∀ e ∈ d.cancelRun, ¬ e.refreshes :=
  List.forall_mem_map.mpr fun _ _ => id

theorem quiet_cancel (d : OpenDocument) : ∀ e ∈ d.cancel, ¬ e.refreshes :=
  List.forall_mem_append.mpr ⟨quiet_stopPause d, quiet_cancelRun d⟩

theorem quiet_farewell (w : Url) (d : OpenDocument) : ∀ e ∈ farewell w d, ¬ e.refreshes := by
  cases hq : d.qualifies <;> simp [farewell, hq, Effect.refreshes]

theorem freshens_endPause (w : Url) (c : Coordinator) : Freshens c (endPause w c) := by
  cases hd : c.documents.get? w with
  | none =>
    rw [endPause_of_none hd]
    exact .refl c
  | some d =>
    rw [endPause_of_some hd]
    exact freshens_of_same rfl rfl (indicator_modify (by simp) w c) (quiet_stopPause d)

theorem freshens_startPause (w : Url) (d : OpenDocument) (c : Coordinator) :
    Freshens c (startPause w d c) := by
  refine freshens_of_same rfl rfl ?_ ?_
  · exact indicator_modify (by simp) w { c with issued := c.issued + 1 }
  · rw [List.forall_mem_append]
    exact ⟨quiet_stopPause d, by simp [Effect.refreshes]⟩

theorem freshens_retire (w : Url) (d : OpenDocument) (c : Coordinator) :
    Freshens c (retire w d c) := by
  have hquiet : ∀ e ∈ d.cancelRun ++ [.emit (.published w none [])], ¬ e.refreshes :=
    List.forall_mem_append.mpr ⟨quiet_cancelRun d, by simp [Effect.refreshes]⟩
  have htold : Freshens c ((c.retired w).told, d.cancelRun ++ [.emit (.published w none [])] ++
      (c.retired w).news ++ [.emit (.settled w)]) :=
    freshens_told rfl rfl (lastStatus?_of_quiet hquiet) rfl
      ⟨.emit (.settled w), by simp, trivial⟩
  rw [retire_eq]
  simpa using htold

theorem freshens_begin (w : Url) (d : OpenDocument) (path : Path) (c : Coordinator) :
    Freshens c ((begin w d path c).1.told, (begin w d path c).2 ++ (begin w d path c).1.news) := by
  rw [← List.append_nil (_ ++ news _)]
  refine freshens_told rfl rfl ?_ rfl ⟨_, List.mem_append_left _ List.mem_concat_self, trivial⟩
  rw [begin, List.map_append, History.lastStatus?, History.last?_append]
  exact lastStatus?_of_quiet (quiet_cancelRun d)

theorem freshens_check (w : Url) (c : Coordinator) : Freshens c (check w c) := by
  obtain ⟨hc, -⟩ | ⟨d, -, -, -, hc⟩ | ⟨d, path, -, -, -, -, hc⟩ := check_cases w c
  · rw [hc]
    exact .refl c
  · rw [hc]
    exact freshens_retire w d c
  · rw [hc]
    exact freshens_begin w d path c

theorem check_upToDate (hd : c.documents.get? w = some d) (hq : d.qualifies = true)
    (hpath : w.toPath? ≠ none) : (check w c).1.UpToDate ∧ ∃ e ∈ (check w c).2, e.refreshes := by
  obtain ⟨-, hnone⟩ | ⟨d', -, -, -, hc⟩ | ⟨d', path, -, -, -, -, hc⟩ := check_cases w c
  · exact absurd (hnone d hd hq).2 hpath
  · rw [hc, retire_eq]
    exact ⟨upToDate_told _, .emit (.settled w), by simp, trivial⟩
  · rw [hc]
    exact ⟨upToDate_told _, _, List.mem_append_left _ List.mem_concat_self, trivial⟩

theorem freshens_changeDocument (w : Url) (version : Int) (text : String) (c : Coordinator) :
    Freshens c (changeDocument w version text c) := by
  cases hd : c.documents.get? w with
  | none =>
    rw [changeDocument_of_none hd]
    exact .refl c
  | some d =>
    have hedit : Freshens c (c.edited w version text, []) :=
      freshens_of_same rfl rfl (indicator_modify (by simp) w c) (by simp)
    rw [changeDocument_of_some hd]
    split
    · exact hedit.trans (freshens_startPause w d _)
    · exact hedit

theorem freshens_saveDocument (w : Url) (text : Option String) (c : Coordinator) :
    Freshens c (saveDocument w text c) := by
  have hsave : Freshens c (c.saved w text, []) :=
    freshens_of_same rfl rfl (indicator_modify (by simp) w c) (by simp)
  rw [saveDocument_eq]
  exact hsave.trans ((freshens_endPause w _).trans (freshens_check w _))

theorem freshens_configure (s : Settings) (c : Coordinator) : Freshens c (configure s c) := by
  have hset : Freshens c ({ c with settings := s }, []) := freshens_of_same rfl rfl rfl (by simp)
  rw [configure_eq]
  refine hset.trans (Freshens.sequence (fun r hr c => ?_) _)
  obtain ⟨u, -, rfl⟩ := List.mem_map.mp hr
  exact (freshens_endPause u c).trans (freshens_check u _)

theorem freshens_rooted (workspace : Workspace) (c : Coordinator) :
    Freshens c ({ c with workspace }, []) :=
  freshens_of_same rfl rfl rfl (by simp)

theorem freshens_elapse (w : Url) (t : Ticket) (c : Coordinator) : Freshens c (elapse w t c) := by
  by_cases ht : ∃ d, c.documents.get? w = some d ∧ d.pause.occupant = some t
  · obtain ⟨d, hd, ht⟩ := ht
    have hend : Freshens c (c.modify w fun d => { d with pause := {} }, []) :=
      freshens_of_same rfl rfl (indicator_modify (by simp) w c) (by simp)
    rw [elapse_of_current hd ht]
    exact hend.trans (freshens_check w _)
  · rw [elapse_of_late fun d hd htd => ht ⟨d, hd, htd⟩]
    exact .refl c

theorem freshens_finish (run : Run) (result : RunEnd) (c : Coordinator) :
    Freshens c (finish run result c) := by
  by_cases ht : ∃ d, c.documents.get? run.url = some d ∧ d.run.occupant = some run.ticket
  · obtain ⟨d, hd, ht⟩ := ht
    rw [finish_of_current hd ht]
    refine freshens_told rfl rfl (lastStatus?_of_quiet ?_) rfl
      ⟨.emit (.settled run.url), by simp, trivial⟩
    refine List.forall_mem_append.mpr ⟨List.forall_mem_map.mpr fun _ _ => id, ?_⟩
    cases result with
    | completed r => exact List.forall_mem_map.mpr fun _ _ => id
    | crashed message => exact List.forall_mem_singleton.mpr id
  · rw [finish_of_late fun d hd htd => ht ⟨d, hd, htd⟩]
    exact .refl c

theorem quiet_replaced (d : Document) (c : Coordinator) : ∀ e ∈ c.replaced d, ¬ e.refreshes := by
  rw [replaced]
  cases c.documents.get? d.url with
  | none => simp
  | some old => exact quiet_cancel old

theorem tells_openDocument (d : Document) (c : Coordinator) : Tells c (openDocument d c) := by
  have hplace : Tells c (c.place d, c.replaced d) :=
    ⟨rfl, by rw [lastStatus?_of_quiet (quiet_replaced d c), Option.none_or]; rfl⟩
  rw [openDocument_eq]
  exact hplace.trans (freshens_check d.url (c.place d)).toTells

theorem tells_closeDocument (w : Url) (c : Coordinator) : Tells c (closeDocument w c) := by
  cases hd : c.documents.get? w with
  | none =>
    rw [closeDocument_of_none hd]
    exact (Freshens.refl c).toTells
  | some d =>
    have hquiet : ∀ e ∈ d.cancel ++ farewell w d, ¬ e.refreshes :=
      List.forall_mem_append.mpr ⟨quiet_cancel d, quiet_farewell w d⟩
    have htold : Tells c ((c.without w d).told, d.cancel ++ farewell w d ++
        (c.without w d).news ++ []) := tells_told rfl rfl (lastStatus?_of_quiet hquiet) rfl
    rw [closeDocument_of_some hd]
    simpa using htold

theorem tells_stop (c : Coordinator) : Tells c (stop c) := by
  refine ⟨rfl, ?_⟩
  rw [lastStatus?_of_quiet, Option.none_or]
  · rfl
  · intro e he
    obtain ⟨d, -, hd⟩ := List.mem_flatMap.mp he
    exact quiet_cancel d e hd

theorem freshens_handle {m : Message} (hs : c.stopped = false) (hm : ¬ m.Turns) :
    Freshens c (c.handle m) := by
  rw [handle_of_running hs]
  cases m with
  | command command =>
    cases command with
    | changed w version text => exact freshens_changeDocument w version text c
    | saved w text => exact freshens_saveDocument w text c
    | configured s => exact freshens_configure s c
    | rooted workspace => exact freshens_rooted workspace c
    | opened d => exact absurd (.opened d) hm
    | closed w => exact absurd (.closed w) hm
    | focused w => exact absurd (.focused w) hm
    | shutdown => exact absurd .shutdown hm
  | elapsed w t => exact freshens_elapse w t c
  | finished run result => exact freshens_finish run result c

theorem tells_handle {m : Message} (hm : (Entry.heard m).focus? = none) (c : Coordinator) :
    Tells c (c.handle m) := by
  cases hs : c.stopped with
  | true =>
    rw [handle_of_stopped hs]
    exact (Freshens.refl c).toTells
  | false =>
    by_cases hturns : m.Turns
    · rw [handle_of_running hs]
      cases hturns with
      | opened d => exact tells_openDocument d c
      | closed w => exact tells_closeDocument w c
      | focused w => cases hm
      | shutdown => exact tells_stop c
    · exact (freshens_handle hs hturns).toTells

theorem handle_focused (hs : c.stopped = false) (w : Option Url) :
    c.handle (.command (.focused w)) =
      (({ c with active := w } : Coordinator).told, ({ c with active := w } : Coordinator).news) := by
  rw [handle_of_running hs]
  exact focus_eq w c

theorem eq_focused {m : Message} {w : Option Url} (hm : (Entry.heard m).focus? = some w) :
    m = .command (.focused w) := by
  unfold Entry.focus? at hm
  split at hm
  · rename_i heq
    rw [Entry.heard.inj heq, Option.some.inj hm]
  · cases hm

theorem shown_handle (m : Message) (c : Coordinator) :
    (c.handle m).1.shown = (History.lastStatus? ((c.handle m).2.map .did)).or c.shown := by
  cases hm : (Entry.heard m).focus? with
  | none => exact (tells_handle hm c).shown
  | some w =>
    obtain rfl := eq_focused hm
    cases hs : c.stopped with
    | true =>
      rw [handle_of_stopped hs]
      rfl
    | false =>
      rw [handle_focused hs]
      exact shown_told { c with active := w }

end Coordinator

/-! ## Lives -/

namespace Coordinator

theorem tells_takeUp (ds : List Document) (c : Coordinator) :
    (Reaction.andThen (.sequence (ds.map openDocument)) refresh c).1.active = c.active ∧
      (Reaction.andThen (.sequence (ds.map openDocument)) refresh c).1.shown =
        (c.takeUp ds).lastStatus?.or c.shown := by
  induction ds generalizing c with
  | nil =>
    show (refresh c).1.active = c.active ∧
      (refresh c).1.shown = (History.lastStatus? ((refresh c).2.map .did)).or c.shown
    rw [refresh_eq]
    exact ⟨rfl, shown_told c⟩
  | cons d ds ih =>
    have hopen := tells_openDocument d c
    obtain ⟨hactive, hshown⟩ := ih (openDocument d c).1
    refine ⟨hactive.trans hopen.active, hshown.trans ?_⟩
    have hheard : (Entry.heard (.command (.opened d))).status? = none := rfl
    rw [hopen.shown, takeUp, History.lastStatus?, History.lastStatus?, History.lastStatus?,
      History.last?_append, History.last?_cons, hheard, Option.or_none, Option.or_assoc]

theorem focus?_takeUp (ds : List Document) (c : Coordinator) :
    ∀ e ∈ c.takeUp ds, e.focus? = none := by
  have hdid : ∀ es : List Effect, ∀ e ∈ es.map Entry.did, e.focus? = none := fun _ =>
    List.forall_mem_map.mpr fun _ _ => rfl
  induction ds generalizing c with
  | nil => exact hdid _
  | cons d ds ih =>
    rw [takeUp, List.forall_mem_append, List.forall_mem_cons]
    exact ⟨⟨rfl, hdid _⟩, ih _⟩

end Coordinator

namespace History

variable {pre post : History} {d : Document}

theorem focus?_of_not_refreshes {e : Entry} {u : Url} (he : ¬ e.refreshes u) : e.focus? = none := by
  unfold Entry.focus?
  split
  · exact absurd trivial he
  · rfl

/-- What is open as another kind of document stays so while nothing brings the status up to date. -/
theorem revise_of_not_refreshes {e : Entry} {u : Url} (he : ¬ e.refreshes u) (hu : d.url = u)
    (hd : d.isWorkflow = false) :
    ∃ d', e.revise u (some d) = some d' ∧ d'.url = u ∧ d'.isWorkflow = false := by
  unfold Entry.revise
  split
  · rename_i d'
    split
    · rename_i hu'
      refine ⟨d', rfl, hu', ?_⟩
      rw [← Bool.not_eq_true]
      exact fun hw => he ⟨hu', hw⟩
    · exact ⟨d, rfl, hu, hd⟩
  · split
    · exact ⟨_, rfl, hu, hd⟩
    · exact ⟨d, rfl, hu, hd⟩
  · split
    · exact ⟨_, rfl, hu, hd⟩
    · exact ⟨d, rfl, hu, hd⟩
  · rename_i w
    have hw : ¬ w = u := he
    rw [if_neg hw]
    exact ⟨d, rfl, hu, hd⟩
  · exact ⟨d, rfl, hu, hd⟩

theorem foldl_revise_of_not_refreshes {u : Url} (hpost : ∀ e ∈ post, ¬ e.refreshes u)
    (hu : d.url = u) (hd : d.isWorkflow = false) :
    ∃ d', post.foldl (Entry.revise u) (some d) = some d' ∧ d'.url = u ∧ d'.isWorkflow = false := by
  induction post generalizing d with
  | nil => exact ⟨d, rfl, hu, hd⟩
  | cons e post ih =>
    rw [List.forall_mem_cons] at hpost
    obtain ⟨d', hd', hu', hw'⟩ := revise_of_not_refreshes hpost.1 hu hd
    rw [List.foldl_cons, hd']
    exact ih hpost.2 hu' hw'

/-- An outdated status is about the active document, which is open as it was opened then. -/
theorem Outdates.since (hwrong : Outdates pre d) (hpost : ∀ e ∈ post, ¬ e.refreshes d.url) :
    active? (pre ++ .heard (.command (.opened d)) :: post) = some d.url ∧
      ∃ d', document? d.url (pre ++ .heard (.command (.opened d)) :: post) = some d' ∧
        d'.isWorkflow = false := by
  obtain ⟨hw, hactive, -⟩ := hwrong
  have hfocus : last? Entry.focus? post = none :=
    last?_of_none fun e he => focus?_of_not_refreshes (hpost e he)
  constructor
  · rw [active?, last?_append, last?_cons, hfocus]
    exact hactive
  · obtain ⟨d', hd', -, hw'⟩ := foldl_revise_of_not_refreshes hpost rfl hw
    refine ⟨d', ?_, hw'⟩
    rw [document?, List.foldl_append, List.foldl_cons, Entry.revise, if_pos rfl]
    exact hd'

end History

/-- When a document goes idle with `n` diagnostics, the indicator changes unless it was idle or
counted them already. -/
theorem Indicator.derive_ne_iff (health : Health) {o : Option (Phase × Nat)} {n : Nat}
    (ho : ∀ p m, o = some (p, m) → m = n) :
    derive health o ≠ derive health (some (.idle, n)) ↔
      derive health o = .running ∨ derive health o = .failed ∨
        (derive health o = .idle ∧ o = none ∧ n ≠ 0) := by
  cases o with
  | none => cases health <;> cases n <;> simp [derive]
  | some x =>
    obtain ⟨p, m⟩ := x
    obtain rfl := ho p m rfl
    cases health <;> cases p <;> cases m <;> simp [derive]

namespace Life

variable {start : Launch} {c : Coordinator} {h : History}

theorem shown_eq (hl : Life start c h) : c.shown = h.lastStatus? := by
  induction hl with
  | launched => exact (Coordinator.tells_takeUp start.documents _).2.trans (Option.or_none ..)
  | @hears c h m hl hm ih =>
    have hheard : (Entry.heard m).status? = none := rfl
    rw [Coordinator.shown_handle, ih, History.lastStatus?, History.lastStatus?, History.lastStatus?,
      History.last?_append, History.last?_cons, hheard, Option.or_none]

theorem active_eq (hl : Life start c h) (hrun : c.stopped = false) : c.active = h.active? := by
  induction hl with
  | launched =>
    have hnone : History.last? Entry.focus? start.history = none :=
      History.last?_of_none (Coordinator.focus?_takeUp start.documents _)
    rw [History.active?, hnone]
    exact (Coordinator.tells_takeUp start.documents _).1
  | @hears c h m hl hm ih =>
    have hrun' := Coordinator.stopped_of_handle hrun
    have hnone : History.last? Entry.focus? ((c.handle m).2.map .did) = none :=
      History.last?_did (fun _ => rfl) _
    rw [History.active?, History.last?_append, History.last?_cons, hnone, Option.none_or]
    cases hfocus : (Entry.heard m).focus? with
    | none =>
      rw [(Coordinator.tells_handle hfocus c).active, ih hrun', Option.none_or]
      rfl
    | some w =>
      obtain rfl := Coordinator.eq_focused hfocus
      rw [Coordinator.handle_focused hrun']
      rfl

theorem idle_of_outdates (hl : Life start c h) (hrun : c.stopped = false) {pre post : History}
    {d : Document} (hh : h = pre ++ .heard (.command (.opened d)) :: post)
    (hwrong : pre.Outdates d) (hpost : ∀ e ∈ post, ¬ e.refreshes d.url) :
    c.active = some d.url ∧ ∃ o, c.documents.get? d.url = some o ∧ o.phase = .idle := by
  obtain ⟨hactive, d', hd', hw⟩ := hwrong.since hpost
  have hsheet := hl.sheet_eq hrun d.url
  rw [hh, hd', Option.map_some] at hsheet
  obtain ⟨o, ho, -, -, hworkflow⟩ := Desk.exists_of_sheet hsheet
  rw [hl.active_eq hrun, hh]
  exact ⟨hactive, o, ho, (hl.idle d.url o ho (hworkflow.trans hw)).2⟩

end Life

namespace Coordinator

variable {c : Coordinator} {h : History}

theorem turns_of_refreshes {m : Message} {u : Url} (hm : (Entry.heard m).refreshes u) :
    m.Turns := by
  unfold Entry.refreshes at hm
  split at hm
  · rename_i d heq
    exact Entry.heard.inj heq ▸ .opened d
  · rename_i w heq
    exact Entry.heard.inj heq ▸ .closed w
  · rename_i w heq
    exact Entry.heard.inj heq ▸ .focused w
  · exact absurd hm id
  · rename_i heq
    cases heq

/-- A message that turns to no document leaves the status as outdated as it was, or refreshes it. -/
theorem upToDate_of_not_turns {m : Message} (hrun : c.stopped = false) (hm : ¬ m.Turns)
    (hc : c.UpToDate ↔ ¬ h.Outdated) :
    (c.handle m).1.UpToDate ↔ ¬ History.Outdated (h ++ .heard m :: (c.handle m).2.map .did) := by
  have hes : ∀ pre d, .heard (.command (.opened d)) ∈ .heard m :: (c.handle m).2.map Entry.did →
      ¬ History.Outdates pre d := by
    intro pre d hd
    obtain rfl : .command (.opened d) = m := by simpa using hd
    exact absurd (.opened d) hm
  rcases (freshens_handle hrun hm).fresh with ⟨hnew, e, he, hre⟩ | ⟨hsame, hquiet⟩
  · refine iff_of_true hnew fun hout => ?_
    obtain ⟨_, _, _, -, -, -, hright⟩ := History.since_of_append hout hes
    exact hright _ (List.mem_cons_of_mem _ (List.mem_map_of_mem he)) hre
  · -- nothing in the new part outdates the status or refreshes it
    rw [hsame, hc, History.Outdated, History.since_append_iff hes]
    rw [List.forall_mem_cons]
    exact ⟨fun d hd => hm (turns_of_refreshes hd),
      List.forall_mem_map.mpr fun f hf _ => hquiet f hf⟩

theorem upToDate_opened_of_isWorkflow {d : Document} (hw : d.isWorkflow = true) (c : Coordinator)
    (h : History) :
    (openDocument d c).1.UpToDate ↔
      ¬ History.Outdated (h ++ .heard (.command (.opened d)) :: (openDocument d c).2.map .did) := by
  have hpath : d.url.toPath? ≠ none := by
    intro hnone
    rw [Document.isWorkflow, Workflow.qualifies, hnone] at hw
    simp at hw
  obtain ⟨hnew, e, he, hre⟩ := check_upToDate (c := c.place d) (w := d.url) (d := placed d)
    (by simp [place]) hw hpath
  rw [openDocument_eq]
  refine iff_of_true hnew fun hout => ?_
  obtain ⟨_, _, _, -, -, -, hright⟩ := History.since_of_append hout fun pre d' hd' hwrong => by
    obtain rfl : d' = d := by simpa using hd'
    exact absurd (hw.symm.trans hwrong.1) (by simp)
  exact hright (.did e) (by simp [he]) hre

theorem indicator_of_active {u : Url} {o : OpenDocument} (hactive : c.active = some u)
    (ho : c.documents.get? u = some o) :
    c.indicator = .derive c.health (some (o.phase, c.published.count u)) := by
  simp [indicator, activeDocument, hactive, ho]

theorem indicator_place_of_active {d : Document} (hactive : c.active = some d.url) :
    (c.place d).indicator = .derive c.health (some (.idle, c.published.count d.url)) :=
  indicator_of_active (c := c.place d) (o := placed d) hactive (by simp [place])

theorem indicator_place_of_inactive {d : Document} (hactive : c.active ≠ some d.url) :
    (c.place d).indicator = c.indicator := by
  simp only [indicator, activeDocument, place]
  cases hu : c.active with
  | none => rfl
  | some u =>
    have hud : u ≠ d.url := fun heq => hactive (hu.trans (congrArg some heq))
    simp [hud]

theorem indicator_without {u w : Url} (hactive : c.active = some u) (hu : u ≠ w)
    (d : OpenDocument) : (c.without w d).indicator = c.indicator := by
  cases hq : d.qualifies <;>
    simp [indicator, activeDocument, without, hactive, hu, hq, Published.count]

theorem check_of_not_qualifies {w : Url} {d : OpenDocument} (hd : c.documents.get? w = some d)
    (hq : d.qualifies = false) : check w c = (c, []) := by
  obtain ⟨hc, -⟩ | ⟨d', hd', hq', -⟩ | ⟨d', path, hd', hq', -⟩ := check_cases w c
  · exact hc
  · obtain rfl := Option.some.inj (hd.symm.trans hd')
    exact absurd (hq.symm.trans hq') Bool.noConfusion
  · obtain rfl := Option.some.inj (hd.symm.trans hd')
    exact absurd (hq.symm.trans hq') Bool.noConfusion

end Coordinator

namespace Life

variable {start : Launch} {c : Coordinator} {h : History} {d : Document}

/-- When the status is up to date, `Outdates` says whether opening a document changes that. -/
theorem outdates_iff (hl : Life start c h) (hrun : c.stopped = false) (hcurrent : c.UpToDate)
    (hw : d.isWorkflow = false) (hactive : c.active = some d.url) :
    h.Outdates d ↔ ¬ (c.place d).UpToDate := by
  have hstatus : h.lastStatus? = some c.indicator := hl.shown_eq.symm.trans hcurrent
  have hdocument : h.document? d.url = none ↔ c.activeDocument = none := by
    have hsheet := hl.sheet_eq hrun d.url
    simp only [Coordinator.activeDocument, hactive]
    cases hd : c.documents.get? d.url <;> cases hd' : h.document? d.url <;> simp_all
  have hpublished : h.lastPublished d.url ≠ [] ↔ c.published.count d.url ≠ 0 := by
    rw [Published.count, hl.published_eq hrun d.url, Ne, Ne, List.length_eq_zero_iff]
  have hcount : ∀ p m, c.activeDocument = some (p, m) → m = c.published.count d.url := by
    intro p m hpm
    simp only [Coordinator.activeDocument, hactive] at hpm
    cases hd : c.documents.get? d.url <;> simp_all
  have hderive := Indicator.derive_ne_iff c.health hcount
  rw [Coordinator.UpToDate, Coordinator.indicator_place_of_active hactive]
  show _ ↔ ¬ c.shown = _
  rw [hcurrent, Option.some.injEq, ← Ne, Coordinator.indicator, hderive, History.Outdates, hstatus,
    hdocument, hpublished, ← hl.active_eq hrun, Option.some.injEq, Option.some.injEq,
    Option.some.injEq]
  simp [hw, hactive, Coordinator.indicator]

theorem upToDate_opened (hl : Life start c h) (hrun : c.stopped = false)
    (hc : c.UpToDate ↔ ¬ h.Outdated) (hw : d.isWorkflow = false) :
    (Coordinator.openDocument d c).1.UpToDate ↔ ¬ History.Outdated
      (h ++ .heard (.command (.opened d)) :: (Coordinator.openDocument d c).2.map .did) := by
  have hcheck : Coordinator.check d.url (c.place d) = (c.place d, []) :=
    Coordinator.check_of_not_qualifies (d := Coordinator.placed d) (by simp [Coordinator.place]) hw
  have hquiet : ∀ e ∈ .heard (.command (.opened d)) :: (c.replaced d).map Entry.did,
      ∀ d' : Document, ¬ e.refreshes d'.url := by
    rw [List.forall_mem_cons]
    exact ⟨fun d' hd' => absurd (hw.symm.trans hd'.2) Bool.noConfusion,
      List.forall_mem_map.mpr fun f hf _ => Coordinator.quiet_replaced d c f hf⟩
  rw [Coordinator.openDocument_eq, hcheck, List.append_nil, History.Outdated,
    History.since_opened_iff (by simp) hquiet, not_or]
  show (c.place d).UpToDate ↔ ¬ h.Outdates d ∧ ¬ h.Outdated
  by_cases hactive : c.active = some d.url
  · by_cases hcurrent : c.UpToDate
    · rw [hl.outdates_iff hrun hcurrent hw hactive, not_not]
      exact (and_iff_left (hc.mp hcurrent)).symm
    · have hout : h.Outdated := by
        by_contra hnot
        exact hcurrent (hc.mpr hnot)
      refine iff_of_false (fun hplace => hcurrent ?_) fun hnot => hnot.2 hout
      -- the document was idle before, so the indicator is the same
      obtain ⟨pre, post, d', hh, hwrong, hpost⟩ := hout
      obtain ⟨hactive', o, ho, hidle⟩ := hl.idle_of_outdates hrun hh hwrong hpost
      obtain hu : d.url = d'.url := Option.some.inj (hactive.symm.trans hactive')
      rw [Coordinator.UpToDate, Coordinator.indicator_of_active hactive' ho, hidle, ← hu,
        ← Coordinator.indicator_place_of_active hactive]
      exact hplace
  · have hnot : ¬ h.Outdates d := fun hwrong => hactive (hl.active_eq hrun ▸ hwrong.2.1)
    rw [Coordinator.UpToDate, Coordinator.indicator_place_of_inactive hactive]
    exact hc.trans (and_iff_right hnot).symm

theorem upToDate_closed (hl : Life start c h) (hrun : c.stopped = false)
    (hc : c.UpToDate ↔ ¬ h.Outdated) (w : Url) :
    (Coordinator.closeDocument w c).1.UpToDate ↔ ¬ History.Outdated
      (h ++ .heard (.command (.closed w)) :: (Coordinator.closeDocument w c).2.map .did) := by
  cases hd : c.documents.get? w with
  | none =>
    -- an outdated status is about a document that is open, so not about this one
    rw [Coordinator.closeDocument_of_none hd, hc, not_iff_not]
    constructor
    · rintro ⟨pre, post, d, rfl, hwrong, hpost⟩
      obtain ⟨-, o, ho, -⟩ := hl.idle_of_outdates hrun rfl hwrong hpost
      have hw : w ≠ d.url := by
        rintro rfl
        exact absurd (hd.symm.trans ho) (by simp)
      refine ⟨pre, post ++ [.heard (.command (.closed w))], d, by simp, hwrong, ?_⟩
      rw [List.forall_mem_append]
      exact ⟨hpost, by simpa [Entry.refreshes] using hw⟩
    · intro hout
      obtain ⟨pre, post, d, hh, hwrong, hpost, -⟩ := History.since_of_append hout (by simp)
      exact ⟨pre, post, d, hh, hwrong, hpost⟩
  | some o =>
    rw [Coordinator.closeDocument_of_some hd]
    refine iff_of_true (Coordinator.upToDate_told _) fun hout => ?_
    obtain ⟨pre, post, d, hh, hwrong, hpost, hright⟩ := History.since_of_append hout (by simp)
    obtain ⟨hactive, -⟩ := hl.idle_of_outdates hrun hh hwrong hpost
    have hw : d.url ≠ w := fun heq => hright _ List.mem_cons_self heq.symm
    -- nothing was told, so the status was up to date before
    have hshown : (c.without w o).UpToDate := by
      by_contra hnot
      have hnews : (c.without w o).news = [.emit (.status (c.without w o).indicator)] := if_neg hnot
      exact hright (.did (.emit (.status (c.without w o).indicator))) (by simp [hnews]) trivial
    rw [Coordinator.UpToDate, Coordinator.indicator_without hactive hw o] at hshown
    exact hc.mp hshown ⟨pre, post, d, hh, hwrong, hpost⟩

theorem upToDate_focused (hrun : c.stopped = false) (w : Option Url) :
    (c.handle (.command (.focused w))).1.UpToDate ↔ ¬ History.Outdated
      (h ++ .heard (.command (.focused w)) :: (c.handle (.command (.focused w))).2.map .did) := by
  rw [Coordinator.handle_focused hrun]
  refine iff_of_true (Coordinator.upToDate_told _) fun hout => ?_
  obtain ⟨_, _, _, -, -, -, hright⟩ := History.since_of_append hout (by simp)
  exact hright _ List.mem_cons_self trivial

theorem upToDate_launched (start : Launch) :
    start.coordinator.UpToDate ↔ ¬ start.history.Outdated := by
  refine iff_of_true ?_ fun hout => ?_
  · show (Coordinator.refresh _).1.UpToDate
    rw [Coordinator.refresh_eq]
    exact Coordinator.upToDate_told _
  · obtain ⟨pre, post, d, hh, hwrong, -⟩ := hout
    have hnone : History.last? Entry.focus? pre = none := by
      refine History.last?_of_none fun e he => ?_
      have hmem : e ∈ start.history := hh ▸ List.mem_append_left _ he
      exact Coordinator.focus?_takeUp start.documents _ e hmem
    have hactive := hwrong.2.1
    rw [History.active?, hnone] at hactive
    cases hactive

/-- While a coordinator runs, the status is up to date unless it was outdated. -/
theorem upToDate_iff (hl : Life start c h) (hrun : c.stopped = false) :
    c.UpToDate ↔ ¬ h.Outdated := by
  induction hl with
  | launched => exact upToDate_launched start
  | @hears c h m hl hm ih =>
    have hrun' := Coordinator.stopped_of_handle hrun
    have hc := ih hrun'
    by_cases hturns : m.Turns
    · cases hturns with
      | opened d =>
        rw [Coordinator.handle_of_running hrun']
        cases hw : d.isWorkflow with
        | true => exact Coordinator.upToDate_opened_of_isWorkflow hw c h
        | false => exact hl.upToDate_opened hrun' hc hw
      | closed w =>
        rw [Coordinator.handle_of_running hrun']
        exact hl.upToDate_closed hrun' hc w
      | focused w => exact upToDate_focused hrun' w
      | shutdown =>
        rw [Coordinator.handle_of_running hrun'] at hrun
        exact absurd hrun Bool.noConfusion
    · exact Coordinator.upToDate_of_not_turns hrun' hturns hc

/-- **The status is out of date only when it was outdated.** While a coordinator runs, the indicator
the host was told last is the one of the health and of the active document unless the active
document was opened as something else than a workflow file at the wrong moment. -/
theorem status_iff (hl : Life start c h) (hrun : c.stopped = false) :
    h.lastStatus? = some (.derive c.health c.activeDocument) ↔ ¬ h.Outdated := by
  rw [← hl.shown_eq]
  exact hl.upToDate_iff hrun

end Life

/-- The file is opened as plain text while it is checked, and `running` stays. -/
theorem status_after_reopening :
    let x := Launch.workflow.after
      [.command (.focused (some Launch.workflowUrl)), .command (.opened Launch.workflowNotes)]
    Life .workflow x.1 x.2 ∧ x.1.stopped = false ∧ x.2.lastStatus? = some .running ∧
      x.1.activeDocument = some (.idle, 0) ∧
      Indicator.derive x.1.health x.1.activeDocument = .idle := by
  refine ⟨Life.after _ _ ?_, ?_, ?_, ?_, ?_⟩
  all_goals decide +kernel

/-- The status of a file that was checked is up to date. -/
theorem Life.status_iff_of_finding :
    let x := Launch.workflow.after [.command (.focused (some Launch.workflowUrl)),
      .finished (Launch.workflowRun 0) Launch.oneFinding]
    x.1.stopped = false ∧
      (x.2.lastStatus? = some (.derive x.1.health x.1.activeDocument) ↔ ¬ x.2.Outdated) :=
  ⟨by decide +kernel, Life.status_iff (Life.after .workflow _ (by decide +kernel))
    (by decide +kernel)⟩

end WorkflowLint

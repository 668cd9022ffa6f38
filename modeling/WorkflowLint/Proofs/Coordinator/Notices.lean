import WorkflowLint.Proofs.Coordinator.LiveRuns
/-!
# A user is told of trouble once

The health of the tool is the verdict of the run that settled last among those with a verdict, of
all documents alike. A run settles when it reports while it is live; a run that settles gives one
notice when it broke down, when it failed in a way that is no matter of health, or when it brings
trouble that was not there before. Nothing else gives notice or changes the health
(`Life.health_and_notices`).

Only the end of a run changes the health; all other reactions are `Quiet`, which is shown for each
of them and composes. That a run settles exactly when its ticket is in the slot is `Life.isLive_iff`.
-/

namespace WorkflowLint

def Effect.notice? : Effect → Option Notice
  | .emit (.notice n) => some n
  | _ => none

def Entry.notice? : Entry → Option Notice
  | .did e => e.notice?
  | .heard _ => none

namespace RunEnd

/-- What the end of a run says of the health of the tool, if anything. -/
def verdict? : RunEnd → Option Health
  | .completed ⟨.findings _, _⟩ => some .good
  | .completed ⟨.warning _, _⟩ => some .unexpectedOutput
  | .completed ⟨.failure f, _⟩ => if f.isNotFound then some .notFound else none
  | .crashed _ => none

/-- Whether the end of a run calls for a notice, in view of the health before it. -/
def callsForNotice (before : Health) : RunEnd → Bool
  | .completed ⟨.findings _, _⟩ => false
  | .completed ⟨.warning _, _⟩ => before ≠ .unexpectedOutput
  | .completed ⟨.failure f, _⟩ => !f.isNotFound || before ≠ .notFound
  | .crashed _ => true

end RunEnd

namespace History

/-- How the run ended that an entry settles: it reports while it is live. -/
def settles? (h : History) : Entry → Option RunEnd
  | .heard (.finished run result) => if h.IsLive run then some result else none
  | _ => none

/-- The ends of the runs that settled, after a history. -/
def settledAfter : History → History → List RunEnd
  | _, [] => []
  | h, e :: es => (h.settles? e).toList ++ settledAfter (h ++ [e]) es

/-- The ends of the runs that settled, oldest first. -/
def settled (h : History) : List RunEnd := settledAfter [] h

/-- The health of the tool as the runs that settled leave it. -/
def verdict (h : History) : Health := (h.settled.filterMap RunEnd.verdict?).getLast?.getD .good

variable {h es : History}

theorem settledAfter_append (h es fs : History) :
    settledAfter h (es ++ fs) = settledAfter h es ++ settledAfter (h ++ es) fs := by
  induction es generalizing h with
  | nil => rw [List.nil_append, settledAfter, List.nil_append, List.append_nil]
  | cons e es ih => rw [List.cons_append, settledAfter, settledAfter, ih, List.append_assoc,
      List.append_assoc, List.singleton_append]

theorem settledAfter_of_quiet (hes : ∀ run result, .heard (.finished run result) ∉ es) :
    settledAfter h es = [] := by
  induction es generalizing h with
  | nil => rfl
  | cons e es ih =>
    have hnone : h.settles? e = none := by
      unfold settles?
      split
      · exact absurd List.mem_cons_self (hes _ _)
      · rfl
    rw [settledAfter, hnone]
    exact ih fun run result he => hes run result (List.mem_cons_of_mem _ he)

theorem settled_heard (h : History) (m : Message) (es : List Effect) :
    settled (h ++ .heard m :: es.map .did) = settled h ++ (h.settles? (.heard m)).toList := by
  have hnone : settledAfter (h ++ [.heard m]) (es.map .did) = [] := settledAfter_of_quiet (by simp)
  rw [settled, settledAfter_append, List.nil_append, settledAfter, hnone, List.append_nil]
  rfl

end History

namespace Coordinator

/-- Nothing is said of the health, and no notice is given. -/
structure Quiet (c : Coordinator) (x : Coordinator × List Effect) : Prop where
  health : x.1.health = c.health
  notices : ∀ e ∈ x.2, e.notice? = none

variable {w : Url} {c c' : Coordinator} {d : OpenDocument} {x y : Coordinator × List Effect}

theorem Quiet.refl (c : Coordinator) : Quiet c (c, []) := ⟨rfl, by simp⟩

theorem Quiet.trans (hx : Quiet c x) (hy : Quiet x.1 y) : Quiet c (y.1, x.2 ++ y.2) :=
  ⟨hy.health.trans hx.health, List.forall_mem_append.mpr ⟨hx.notices, hy.notices⟩⟩

theorem Quiet.sequence {rs : List Reaction} (hrs : ∀ r ∈ rs, ∀ c, Quiet c (r c)) :
    ∀ c, Quiet c (Reaction.sequence rs c) := by
  induction rs with
  | nil => exact Quiet.refl
  | cons r rs ih =>
    intro c
    exact (hrs r (by simp) c).trans (ih (fun s hs => hrs s (by simp [hs])) _)

theorem quiet_told (c : Coordinator) : Quiet c (c.told, c.news) :=
  ⟨rfl, fun e he => by rw [mem_news he]; rfl⟩

theorem notice?_stopPause (d : OpenDocument) : ∀ e ∈ d.stopPause, e.notice? = none :=
  List.forall_mem_map.mpr fun _ _ => rfl

theorem notice?_cancelRun (d : OpenDocument) : ∀ e ∈ d.cancelRun, e.notice? = none :=
  List.forall_mem_map.mpr fun _ _ => rfl

theorem notice?_cancel (d : OpenDocument) : ∀ e ∈ d.cancel, e.notice? = none :=
  List.forall_mem_append.mpr ⟨notice?_stopPause d, notice?_cancelRun d⟩

theorem quiet_retire (w : Url) (d : OpenDocument) (c : Coordinator) : Quiet c (retire w d c) := by
  rw [retire_eq]
  refine ⟨rfl, ?_⟩
  rw [List.append_assoc, List.forall_mem_append, List.cons_append, List.forall_mem_cons,
    List.forall_mem_append]
  exact ⟨notice?_cancelRun d, rfl, (quiet_told _).notices, by simp [Effect.notice?]⟩

theorem quiet_begin (w : Url) (d : OpenDocument) (path : Path) (c : Coordinator) :
    Quiet c (begin w d path c) :=
  ⟨rfl, List.forall_mem_append.mpr ⟨notice?_cancelRun d, by simp [Effect.notice?]⟩⟩

theorem quiet_check (w : Url) (c : Coordinator) : Quiet c (check w c) := by
  obtain ⟨hc, -⟩ | ⟨d, -, -, -, hc⟩ | ⟨d, path, -, -, -, -, hc⟩ := check_cases w c
  · rw [hc]
    exact .refl c
  · rw [hc]
    exact quiet_retire w d c
  · rw [hc]
    exact (quiet_begin w d path c).trans (quiet_told _)

theorem quiet_endPause (w : Url) (c : Coordinator) : Quiet c (endPause w c) := by
  cases hd : c.documents.get? w with
  | none =>
    rw [endPause_of_none hd]
    exact .refl c
  | some d =>
    rw [endPause_of_some hd]
    exact ⟨rfl, notice?_stopPause d⟩

theorem quiet_openDocument (d : Document) (c : Coordinator) : Quiet c (openDocument d c) := by
  have hplace : Quiet c (c.place d, c.replaced d) := by
    refine ⟨rfl, ?_⟩
    rw [replaced]
    cases c.documents.get? d.url with
    | none => simp
    | some old => exact notice?_cancel old
  rw [openDocument_eq]
  exact hplace.trans (quiet_check d.url _)

theorem quiet_changeDocument (w : Url) (version : Int) (text : String) (c : Coordinator) :
    Quiet c (changeDocument w version text c) := by
  cases hd : c.documents.get? w with
  | none =>
    rw [changeDocument_of_none hd]
    exact .refl c
  | some d =>
    rw [changeDocument_of_some hd]
    split
    · exact ⟨rfl, List.forall_mem_append.mpr ⟨notice?_stopPause d, by simp [Effect.notice?]⟩⟩
    · exact ⟨rfl, by simp⟩

theorem quiet_saveDocument (w : Url) (text : Option String) (c : Coordinator) :
    Quiet c (saveDocument w text c) := by
  have hsave : Quiet c (c.saved w text, []) := ⟨rfl, by simp⟩
  rw [saveDocument_eq]
  exact hsave.trans ((quiet_endPause w _).trans (quiet_check w _))

theorem quiet_closeDocument (w : Url) (c : Coordinator) : Quiet c (closeDocument w c) := by
  cases hd : c.documents.get? w with
  | none =>
    rw [closeDocument_of_none hd]
    exact .refl c
  | some d =>
    have hwithout : Quiet c (c.without w d, d.cancel ++ farewell w d) := by
      refine ⟨rfl, List.forall_mem_append.mpr ⟨notice?_cancel d, ?_⟩⟩
      cases hq : d.qualifies <;> simp [farewell, hq, Effect.notice?]
    rw [closeDocument_of_some hd]
    exact hwithout.trans (quiet_told _)

theorem quiet_configure (s : Settings) (c : Coordinator) : Quiet c (configure s c) := by
  have hset : Quiet c ({ c with settings := s }, []) := ⟨rfl, by simp⟩
  rw [configure_eq]
  refine hset.trans (Quiet.sequence (fun r hr c => ?_) _)
  obtain ⟨u, -, rfl⟩ := List.mem_map.mp hr
  exact (quiet_endPause u c).trans (quiet_check u _)

theorem quiet_stop (c : Coordinator) : Quiet c (stop c) := by
  refine ⟨rfl, fun e he => ?_⟩
  obtain ⟨d, -, hd⟩ := List.mem_flatMap.mp he
  exact notice?_cancel d e hd

theorem quiet_obey (command : Command) (c : Coordinator) : Quiet c (obey command c) := by
  cases command with
  | opened d => exact quiet_openDocument d c
  | changed w version text => exact quiet_changeDocument w version text c
  | saved w text => exact quiet_saveDocument w text c
  | closed w => exact quiet_closeDocument w c
  | focused w =>
    have hset : Quiet c ({ c with active := w }, []) := ⟨rfl, by simp⟩
    rw [focus_eq]
    exact hset.trans (quiet_told _)
  | configured s => exact quiet_configure s c
  | rooted workspace => exact ⟨rfl, by simp [obey]⟩
  | shutdown => exact quiet_stop c

theorem quiet_elapse (w : Url) (t : Ticket) (c : Coordinator) : Quiet c (elapse w t c) := by
  obtain ⟨d, -, -, hc⟩ | ⟨hc, -⟩ := elapse_cases w t c
  · have hend : Quiet c (c.modify w fun d => { d with pause := {} }, []) := ⟨rfl, by simp⟩
    rw [hc]
    exact hend.trans (quiet_check w _)
  · rw [hc]
    exact .refl c

/-- All but the end of the run in the slot is quiet. -/
theorem quiet_handle {m : Message} (hm : ∀ run result, m = .finished run result →
    ∀ d, c.documents.get? run.url = some d → d.run.occupant ≠ some run.ticket) :
    Quiet c (c.handle m) := by
  cases hs : c.stopped with
  | true =>
    rw [handle_of_stopped hs]
    exact .refl c
  | false =>
    rw [handle_of_running hs]
    cases m with
    | command command => exact quiet_obey command c
    | elapsed w t => exact quiet_elapse w t c
    | finished run result =>
      show Quiet c (finish run result c)
      rw [finish_of_late (hm run result rfl)]
      exact .refl c

/-! ## Ends of runs -/

theorem healthAfterEnd_eq (now : Health) (result : RunEnd) :
    healthAfterEnd now result = result.verdict?.getD now := by
  cases result with
  | crashed => rfl
  | completed r =>
    obtain ⟨outcome, invocation⟩ := r
    cases outcome <;> rfl

theorem length_notices (run : Run) (now : Health) (result : RunEnd) :
    ((notices run now result).filterMap Effect.notice?).length =
      if result.callsForNotice now then 1 else 0 := by
  cases result with
  | crashed => rfl
  | completed r =>
    obtain ⟨outcome, invocation⟩ := r
    cases outcome with
    | findings fs => rfl
    | warning message =>
      cases now <;> rfl
    | failure f =>
      cases hf : f.isNotFound <;> cases now <;>
        simp [notices, noticeAfter?, healthAfter?, noticeOf?, hf, RunEnd.callsForNotice,
          Health.worsens, Effect.notice?]

theorem filterMap_notice?_of_quiet (hx : Quiet c x) : x.2.filterMap Effect.notice? = [] :=
  List.filterMap_eq_nil_iff.mpr hx.notices

theorem finish_notices {run : Run} (hd : c.documents.get? run.url = some d)
    (ht : d.run.occupant = some run.ticket) (result : RunEnd) :
    (finish run result c).1.health = result.verdict?.getD c.health ∧
      ((finish run result c).2.filterMap Effect.notice?).length =
        if result.callsForNotice c.health then 1 else 0 := by
  rw [finish_of_current hd ht]
  refine ⟨healthAfterEnd_eq c.health result, ?_⟩
  have hpublication : (publication run result).filterMap Effect.notice? = [] :=
    List.filterMap_eq_nil_iff.mpr (List.forall_mem_map.mpr fun _ _ => rfl)
  have hnews : (c.concluded run result).news.filterMap Effect.notice? = [] :=
    filterMap_notice?_of_quiet (quiet_told _)
  rw [← length_notices run c.health result]
  simp [hpublication, hnews, Effect.notice?]

/-- What is done about a message as to health and notices, when runs settle as the history says. -/
structure Warns (c : Coordinator) (h : History) (m : Message) : Prop where
  settles : ∀ result, h.settles? (.heard m) = some result →
    (c.handle m).1.health = result.verdict?.getD c.health ∧
      ((c.handle m).2.filterMap Effect.notice?).length =
        if result.callsForNotice c.health then 1 else 0
  quiet : h.settles? (.heard m) = none →
    (c.handle m).1.health = c.health ∧ (c.handle m).2.filterMap Effect.notice? = []

end Coordinator

namespace History

variable {h es : History}

theorem verdict_heard (h : History) (m : Message) (es : List Effect) :
    verdict (h ++ .heard m :: es.map .did) =
      ((h.settles? (.heard m)).bind RunEnd.verdict?).getD (verdict h) := by
  rw [verdict, settled_heard, List.filterMap_append, verdict]
  cases h.settles? (.heard m) with
  | none => simp
  | some result => cases hv : result.verdict? <;> simp [hv]

end History

namespace Launch

open Coordinator

theorem quiet_takeUp (ds : List Document) (c : Coordinator) :
    (Reaction.andThen (.sequence (ds.map openDocument)) refresh c).1.health = c.health ∧
      (∀ e ∈ c.takeUp ds, e.notice? = none) ∧
      ∀ run result, .heard (.finished run result) ∉ c.takeUp ds := by
  induction ds generalizing c with
  | nil =>
    have htakeUp : c.takeUp [] = c.news.map .did := by rw [takeUp, refresh_eq]
    rw [htakeUp]
    refine ⟨?_, List.forall_mem_map.mpr (quiet_told c).notices, by simp⟩
    exact congrArg (fun x : Coordinator × List Effect => x.1.health) (refresh_eq c)
  | cons d ds ih =>
    obtain ⟨hhealth, hnotices, hends⟩ := ih (openDocument d c).1
    have hopened := quiet_openDocument d c
    refine ⟨hhealth.trans hopened.health, ?_, ?_⟩
    · rw [takeUp, List.forall_mem_append, List.forall_mem_cons]
      exact ⟨⟨rfl, List.forall_mem_map.mpr hopened.notices⟩, hnotices⟩
    · intro run result
      rw [takeUp]
      simpa using hends run result

end Launch

namespace Life

variable {start : Launch} {c : Coordinator} {h : History}

theorem quiet_of_settles?_none (hl : Life start c h) {m : Message} (hm : h.Admits m)
    (hnone : h.settles? (.heard m) = none) : c.Quiet (c.handle m) := by
  refine Coordinator.quiet_handle ?_
  rintro run result rfl d hd ht
  -- the run in the slot is live, so its end would settle
  have hlive : h.IsLive run := hl.isLive_iff.mpr ⟨hm, occupant_run_iff.mpr ⟨d, hd, ht⟩⟩
  rw [History.settles?, if_pos hlive] at hnone
  cases hnone

theorem exists_of_settles? (hl : Life start c h) {m : Message} {result : RunEnd}
    (hsettles : h.settles? (.heard m) = some result) :
    ∃ run d, c.handle m = c.finish run result ∧ c.documents.get? run.url = some d ∧
      d.run.occupant = some run.ticket := by
  unfold History.settles? at hsettles
  split at hsettles
  · rename_i run other hm
    obtain rfl := Entry.heard.inj hm
    split at hsettles <;> cases hsettles
    rename_i hlive
    obtain ⟨d, hd, ht⟩ := occupant_run_iff.mp (hl.isLive_iff.mp hlive).2
    have hrun : c.stopped = false := by
      rw [← Bool.not_eq_true]
      exact (hl.sound run.url).running hd
    exact ⟨run, d, Coordinator.handle_of_running hrun _, hd, ht⟩
  · cases hsettles

theorem warns (hl : Life start c h) {m : Message} (hm : h.Admits m) : c.Warns h m where
  settles result hsettles := by
    obtain ⟨run, d, hc, hd, ht⟩ := hl.exists_of_settles? hsettles
    rw [hc]
    exact Coordinator.finish_notices hd ht result
  quiet hnone := by
    have hquiet := hl.quiet_of_settles?_none hm hnone
    exact ⟨hquiet.health, Coordinator.filterMap_notice?_of_quiet hquiet⟩

theorem health_eq_verdict (hl : Life start c h) : c.health = h.verdict := by
  induction hl with
  | launched =>
    obtain ⟨hhealth, -, hends⟩ := Launch.quiet_takeUp start.documents start.blank
    rw [History.verdict, History.settled]
    have hnone : History.settledAfter [] start.history = [] := History.settledAfter_of_quiet hends
    rw [hnone]
    exact hhealth
  | @hears c h m hl hm ih =>
    rw [History.verdict_heard]
    cases hsettles : h.settles? (.heard m) with
    | none => exact ((hl.warns hm).quiet hsettles).1.trans ih
    | some result => rw [((hl.warns hm).settles result hsettles).1, ih]; rfl

/-- **A user is told of trouble once.** The health of the tool is what the run says that settled
last among those with a verdict; a run that settles gives one notice when it calls for one, and
nothing else gives notice. -/
theorem health_and_notices (hl : Life start c h) :
    c.health = h.verdict ∧ start.history.filterMap Entry.notice? = [] ∧
      ∀ m, h.Admits m → c.Warns h m := by
  refine ⟨hl.health_eq_verdict, ?_, fun m hm => hl.warns hm⟩
  exact List.filterMap_eq_nil_iff.mpr (Launch.quiet_takeUp start.documents start.blank).2.1

/-- Two runs end in output that cannot be trusted: the first gives notice, and the second does
not. -/
theorem health_and_notices_of_warnings :
    let odd : RunEnd := .completed { outcome := .warning "odd" }
    let first : Message := .finished (Launch.workflowRun 0) odd
    let second : Message := .finished (Launch.workflowRun 1) odd
    let x := Launch.workflow.after []
    let y := Launch.workflow.after [first, .command (.saved Launch.workflowUrl none)]
    ((x.1.handle first).2.filterMap Effect.notice?).length = 1 ∧
      y.1.health = .unexpectedOutput ∧
      ((y.1.handle second).2.filterMap Effect.notice?).length = 0 := by
  intro odd first second x y
  have hx := health_and_notices (Life.after Launch.workflow [] (by decide +kernel))
  have hy := health_and_notices (Life.after Launch.workflow
    [first, .command (.saved Launch.workflowUrl none)] (by decide +kernel))
  have hfirst := ((hx.2.2 first (by decide +kernel)).settles odd (by decide +kernel)).2
  have hsecond := ((hy.2.2 second (by decide +kernel)).settles odd (by decide +kernel)).2
  have hhealth : y.1.health = .unexpectedOutput := hy.1.trans (by decide +kernel)
  rw [hx.1] at hfirst
  rw [hhealth] at hsecond
  exact ⟨hfirst.trans (by decide +kernel), hhealth, hsecond.trans (by decide +kernel)⟩

end Life

end WorkflowLint

import WorkflowLint.Proofs.Coordinator.Life
import WorkflowLint.Proofs.Coordinator.Reactions
import Mathlib.Data.List.Basic
import Mathlib.Data.List.Induction
/-!
# The screen of the host

A host that puts each publication in place of what it showed of the document has a screen, and its
history says what is on it. While the coordinator runs, it stores what is on the screen
(`Life.published_eq_screen`).

No reaction but the end touches the store without telling the host, nor tells the host without
touching the store. Reactions that are so are said to be mirrored. Being mirrored is kept by what
puts reactions together, so it is shown of each reaction by going along its definition; nothing
that happened before matters.
-/

namespace WorkflowLint

def Published.see (p : Published) : Effect → Published
  | .emit (.published u _ ds) => p.replace u ds
  | _ => p

def History.screen (h : History) : Published :=
  (h.filterMap Entry.effect?).foldl Published.see {}

/-- What is done to the store is done on the screen. -/
def Reaction.Mirrored (r : Reaction) : Prop :=
  ∀ c, (r c).1.published = (r c).2.foldl Published.see c.published

namespace History

theorem screen_heard (h : History) (m : Message) (es : List Effect) :
    screen (h ++ .heard m :: es.map .did) = es.foldl Published.see h.screen := by
  have heard : Entry.effect? (.heard m) = none := rfl
  have hdid : (es.map Entry.did).filterMap Entry.effect? = es := by
    rw [List.filterMap_map]
    exact List.filterMap_some
  rw [screen, List.filterMap_append, List.filterMap_cons_none heard, hdid, List.foldl_append]
  rfl

theorem get_see (p : Published) (u : Url) (e : Effect) :
    (p.see e).get u = (Entry.published? u (.did e)).getD (p.get u) := by
  unfold Published.see
  split
  · rename_i w version ds
    rw [Published.get_replace, Entry.published?]
    by_cases hw : w = u
    · rw [if_pos hw, if_pos hw.symm, Option.getD_some]
    · rw [if_neg hw, if_neg (Ne.symm hw), Option.getD_none]
  · rename_i htold
    have hnone : Entry.published? u (.did e) = none := by
      unfold Entry.published?
      split
      · rename_i heq
        exact absurd (Entry.did.inj heq) (htold _ _ _)
      · rfl
    rw [hnone, Option.getD_none]

theorem get_screen (h : History) (u : Url) : h.screen.get u = h.lastPublished u := by
  induction h using List.reverseRecOn with
  | nil => rfl
  | append_singleton h e ih =>
    cases e with
    | heard m =>
      -- what is heard shows nothing
      have hscreen := screen_heard h m []
      have hlast : lastPublished u (h ++ [.heard m]) = lastPublished u h := by
        rw [lastPublished, last?_append]
        rfl
      exact (congrArg (·.get u) hscreen).trans (ih.trans hlast.symm)
    | did e =>
      have hscreen : screen (h ++ [.did e]) = (screen h).see e := by
        rw [screen, List.filterMap_append, List.foldl_append]
        rfl
      rw [hscreen, get_see, ih, lastPublished, lastPublished, last?_append, last?_cons, last?_nil,
        Option.none_or, Option.getD_or]

end History

namespace Coordinator

open Reaction

theorem mirrored_skip : Mirrored skip := fun _ => rfl

theorem mirrored_change {f : Coordinator → Coordinator} (hf : ∀ c, (f c).published = c.published) :
    Mirrored (change f) := hf

theorem mirrored_modify (w : Url) (f : OpenDocument → OpenDocument) :
    Mirrored (change (modify w f)) :=
  mirrored_change fun _ => rfl

theorem mirrored_act {es : List Effect} (hes : ∀ p : Published, es.foldl Published.see p = p) :
    Mirrored (act es) := fun c => (hes c.published).symm

theorem mirrored_tell {e : Event} (he : ∀ p : Published, p.see (.emit e) = p) :
    Mirrored (tell e) := mirrored_act he

theorem mirrored_andThen {r s : Reaction} (hr : Mirrored r) (hs : Mirrored s) :
    Mirrored (r.andThen s) := by
  intro c
  rw [andThen_apply, List.foldl_append, ← hr c]
  exact hs (r c).1

theorem mirrored_sequence {rs : List Reaction} (hrs : ∀ r ∈ rs, Mirrored r) :
    Mirrored (sequence rs) := by
  induction rs with
  | nil => exact mirrored_skip
  | cons r rs ih =>
    rw [List.forall_mem_cons] at hrs
    exact mirrored_andThen hrs.1 (ih hrs.2)

/-! ## The store and the host at once -/

theorem mirrored_publish (run : Run) (ds : List Diagnostic) : Mirrored (publish run ds) :=
  fun _ => rfl

theorem mirrored_clear (w : Url) : Mirrored (clear w) := by
  intro c
  -- a publication of nothing clears the screen of the document
  have hnone : c.published.replace w [] = c.published.remove w := if_pos rfl
  exact hnone.symm

/-! ## Neither -/

theorem foldl_see_stopPause (d : OpenDocument) (p : Published) :
    d.stopPause.foldl Published.see p = p := by
  rw [OpenDocument.stopPause, List.foldl_map]
  exact List.foldl_fixed' (fun _ => rfl) _

theorem foldl_see_cancelRun (d : OpenDocument) (p : Published) :
    d.cancelRun.foldl Published.see p = p := by
  rw [OpenDocument.cancelRun, List.foldl_map]
  exact List.foldl_fixed' (fun _ => rfl) _

theorem foldl_see_cancel (d : OpenDocument) (p : Published) :
    d.cancel.foldl Published.see p = p := by
  rw [OpenDocument.cancel, List.foldl_append, foldl_see_stopPause, foldl_see_cancelRun]

theorem mirrored_refresh : Mirrored refresh := by
  intro c
  unfold refresh
  split <;> rfl

theorem mirrored_settled (w : Url) : Mirrored (tell (.settled w)) := mirrored_tell fun _ => rfl

theorem mirrored_begin (w : Url) (d : OpenDocument) (path : Path) : Mirrored (begin w d path) := by
  intro c
  have hsee : (begin w d path c).2.foldl Published.see c.published = c.published := by
    simp [begin, foldl_see_cancelRun, Published.see]
  exact hsee.symm

theorem mirrored_startPause (w : Url) (d : OpenDocument) : Mirrored (startPause w d) := by
  intro c
  have hsee : (startPause w d c).2.foldl Published.see c.published = c.published := by
    simp [startPause, foldl_see_stopPause, Published.see]
  exact hsee.symm

theorem mirrored_endPause (w : Url) : Mirrored (endPause w) := by
  intro c
  unfold endPause
  split
  · rfl
  · rename_i d _
    exact mirrored_andThen (mirrored_act (foldl_see_stopPause d)) (mirrored_modify w _) c

/-! ## Runs -/

theorem mirrored_retire (w : Url) (d : OpenDocument) : Mirrored (retire w d) := by
  refine mirrored_sequence ?_
  simp only [List.forall_mem_cons]
  exact ⟨mirrored_act (foldl_see_cancelRun d), mirrored_modify w _, mirrored_clear w,
    mirrored_refresh, mirrored_settled w, by simp⟩

theorem mirrored_check (w : Url) : Mirrored (check w) := by
  intro c
  unfold check
  split
  · rfl
  · rename_i d _
    split
    · rfl
    · split
      · exact mirrored_retire w d c
      · split
        · rfl
        · exact mirrored_andThen (mirrored_begin w d _) mirrored_refresh c

theorem mirrored_report (o : Outcome) : Mirrored (report o) := by
  intro c
  rw [report_eq]
  cases noticeAfter? c.health o <;> rfl

theorem mirrored_conclude (run : Run) (o : Outcome) : Mirrored (conclude run o) := by
  refine mirrored_andThen ?_ (mirrored_report o)
  split
  · exact mirrored_publish run _
  · exact mirrored_skip

theorem mirrored_finish (run : Run) (result : RunEnd) : Mirrored (finish run result) := by
  intro c
  have hends : ∀ (slot : Slot) (phase : Phase) {outcome : Reaction}, Mirrored outcome →
      Mirrored (sequence [
        change (modify run.url fun d => { d with run := slot }),
        outcome,
        change (modify run.url fun d => { d with phase }),
        refresh,
        tell (.settled run.url)]) := by
    intro slot phase outcome houtcome
    refine mirrored_sequence ?_
    simp only [List.forall_mem_cons]
    exact ⟨mirrored_modify _ _, houtcome, mirrored_modify _ _, mirrored_refresh,
      mirrored_settled _, by simp⟩
  unfold finish
  split
  · rfl
  · cases result with
    | completed r => exact hends _ _ (mirrored_conclude run r.outcome) c
    | crashed message => exact hends _ _ (mirrored_tell fun _ => rfl) c

theorem mirrored_elapse (w : Url) (t : Ticket) : Mirrored (elapse w t) := by
  intro c
  unfold elapse
  split
  · rfl
  · exact mirrored_andThen (mirrored_modify w _) (mirrored_check w) c

/-! ## Commands -/

theorem mirrored_openDocument (d : Document) : Mirrored (openDocument d) := by
  intro c
  have hcheck := mirrored_check d.url (c.place d)
  have hreplaced : (c.replaced d).foldl Published.see c.published = c.published := by
    rw [replaced]
    cases c.documents.get? d.url with
    | none => rfl
    | some old => exact foldl_see_cancel old c.published
  rw [openDocument_eq, List.foldl_append, hreplaced]
  exact hcheck

theorem mirrored_changeDocument (w : Url) (version : Int) (text : String) :
    Mirrored (changeDocument w version text) := by
  intro c
  unfold changeDocument
  split
  · rfl
  · refine mirrored_andThen (mirrored_modify w _) ?_ c
    split
    · exact mirrored_startPause w _
    · exact mirrored_skip

theorem mirrored_saveDocument (w : Url) (text : Option String) :
    Mirrored (saveDocument w text) := by
  refine mirrored_sequence ?_
  simp only [List.forall_mem_cons]
  exact ⟨mirrored_modify w _, mirrored_endPause w, mirrored_check w, by simp⟩

theorem mirrored_closeDocument (w : Url) : Mirrored (closeDocument w) := by
  intro c
  unfold closeDocument
  split
  · rfl
  · rename_i d _
    have hclear : Mirrored (if d.qualifies then clear w else skip) := by
      split
      · exact mirrored_clear w
      · exact mirrored_skip
    refine mirrored_sequence ?_ c
    simp only [List.forall_mem_cons]
    exact ⟨mirrored_act (foldl_see_cancel d), mirrored_change fun _ => rfl, hclear,
      mirrored_refresh, by simp⟩

theorem mirrored_configure (s : Settings) : Mirrored (configure s) := by
  intro c
  have hset : Mirrored (change fun c => { c with settings := s }) := mirrored_change fun _ => rfl
  refine mirrored_andThen hset (mirrored_sequence ?_) c
  rw [List.forall_mem_map]
  exact fun w _ => mirrored_andThen (mirrored_endPause w) (mirrored_check w)

theorem mirrored_obey {command : Command} (hc : command ≠ .shutdown) : Mirrored (obey command) := by
  cases command with
  | opened d => exact mirrored_openDocument d
  | changed w version text => exact mirrored_changeDocument w version text
  | saved w text => exact mirrored_saveDocument w text
  | closed w => exact mirrored_closeDocument w
  | focused w => exact mirrored_andThen (mirrored_change fun _ => rfl) mirrored_refresh
  | configured s => exact mirrored_configure s
  | rooted workspace => exact mirrored_change fun _ => rfl
  | shutdown => exact absurd rfl hc

theorem mirrored_handle {m : Message} (hm : m ≠ .command .shutdown) : Mirrored (handle m) := by
  intro c
  cases hstop : c.stopped with
  | true => rw [handle_of_stopped hstop]; rfl
  | false =>
    rw [handle_of_running hstop]
    cases m with
    | command command =>
      exact mirrored_obey (fun hc => hm (congrArg Message.command hc)) c
    | elapsed w t => exact mirrored_elapse w t c
    | finished run result => exact mirrored_finish run result c

end Coordinator

namespace Life

variable {start : Launch} {c : Coordinator} {h : History}

theorem screen_history (start : Launch) : start.coordinator.published = start.history.screen := by
  have hopen : Reaction.Mirrored (Reaction.sequence (start.documents.map Coordinator.openDocument)) :=
    Coordinator.mirrored_sequence
      (List.forall_mem_map.mpr fun d _ => Coordinator.mirrored_openDocument d)
  rw [History.screen, start.filterMap_effect?_history]
  exact Coordinator.mirrored_andThen hopen Coordinator.mirrored_refresh _

theorem ne_shutdown_of_handle {m : Message} (hrun : (c.handle m).1.stopped = false) :
    m ≠ .command .shutdown := by
  rintro rfl
  rw [Coordinator.handle_of_running (Coordinator.stopped_of_handle hrun)] at hrun
  cases hrun

theorem published_of_running (hl : Life start c h) (hrun : c.stopped = false) :
    c.published = h.screen := by
  induction hl with
  | launched => exact screen_history start
  | @hears c h m _ _ ih =>
    have hm := ne_shutdown_of_handle hrun
    rw [History.screen_heard, Coordinator.mirrored_handle hm c,
      ih (Coordinator.stopped_of_handle hrun)]

/-- **The host shows what is stored.** Until the end, the store is the screen of the host, which has
of each document what the host was told last. -/
theorem published_eq_screen (hl : Life start c h) (hrun : c.stopped = false) :
    c.published = h.screen ∧ ∀ u, c.published.get u = h.lastPublished u := by
  have hscreen := hl.published_of_running hrun
  refine ⟨hscreen, fun u => ?_⟩
  rw [hscreen]
  exact h.get_screen u

/-- A run ends with a finding. -/
theorem published_eq_screen_of_finding :
    let x := Launch.workflow.after [.finished (Launch.workflowRun 0) Launch.oneFinding]
    x.1.published = x.2.screen ∧ x.1.published.count Launch.workflowUrl = 1 ∧
      x.1.published.get Launch.workflowUrl = x.2.lastPublished Launch.workflowUrl := by
  intro x
  have hscreen := published_eq_screen (Life.after Launch.workflow
    [.finished (Launch.workflowRun 0) Launch.oneFinding] (by decide +kernel)) (by decide +kernel)
  exact ⟨hscreen.1, by decide +kernel, hscreen.2 _⟩

end Life

end WorkflowLint

import WorkflowLint.Proofs.Coordinator.LiveRuns
/-!
# No edit goes unchecked

Of every open workflow file: while checking is on, the run begun last since it was opened was begun
with the settings in force, and when edits are checked, it was begun with the present text and
version, or the timer of a pause is still to run out, after which a run begins. While checking is
off, the file has no run and no diagnostics (`Life.covers`).

A check sets all of this right, whatever was before (`Clerk.covered_check`). So only what does
without a check needs an argument: an edit, which starts a pause or is not to be checked; and the
end of a run, which leaves the run begun last.
-/

namespace WorkflowLint

/-- The run of a document begun last since the document was opened. -/
def Entry.lastRun (u : Url) (o : Option Run) : Entry → Option Run
  | .heard (.command (.opened d)) => if d.url = u then none else o
  | .heard (.command (.closed w)) => if w = u then none else o
  | .did (.start run) => if run.url = u then some run else o
  | _ => o

namespace History

def lastRun? (u : Url) (h : History) : Option Run := h.foldl (Entry.lastRun u) none

variable {u : Url} {h es : History}

theorem lastRun?_append (hes : ∀ e ∈ es, ∀ o, e.lastRun u o = o) :
    lastRun? u (h ++ es) = lastRun? u h := by
  rw [lastRun?, lastRun?, List.foldl_append]
  generalize h.foldl (Entry.lastRun u) none = o
  induction es with
  | nil => rfl
  | cons e es ih =>
    obtain ⟨he, hes⟩ := List.forall_mem_cons.mp hes
    rw [List.foldl_cons, he]
    exact ih hes

theorem lastRun?_start (run : Run) (hu : run.url = u) (es : List Effect) :
    lastRun? u (h ++ (es ++ [Effect.start run]).map .did) = some run := by
  rw [List.map_append, ← List.append_assoc, lastRun?, List.foldl_append]
  exact if_pos hu

theorem lastRun?_file (u : Url) (h : History) : lastRun? u (h.file u) = lastRun? u h := by
  have hfilter : ∀ (own : List Ticket) (o : Option Run),
      (h.filter (Entry.isFor u own)).foldl (Entry.lastRun u) o = h.foldl (Entry.lastRun u) o := by
    intro own
    induction h with
    | nil => exact fun _ => rfl
    | cons e h ih =>
      intro o
      rw [List.filter_cons, List.foldl_cons]
      split
      · exact ih _
      · rename_i hfor
        have hsame : e.lastRun u o = o := by
          unfold Entry.lastRun
          split
          · exact if_neg (by simpa [Entry.isFor, Message.isFor] using hfor)
          · exact if_neg (by simpa [Entry.isFor, Message.isFor] using hfor)
          · exact if_neg (by simpa [Entry.isFor, Effect.isFor] using hfor)
          · rfl
        rw [hsame]
        exact ih o
  exact hfilter _ none

theorem lastRun_stopPause (d : OpenDocument) :
    ∀ e ∈ d.stopPause.map Entry.did, ∀ o, e.lastRun u o = o := by
  rw [OpenDocument.stopPause, List.map_map]
  exact List.forall_mem_map.mpr fun _ _ _ => rfl

theorem lastRun_publication (run : Run) (result : RunEnd) :
    ∀ e ∈ (Coordinator.publication run result).map Entry.did, ∀ o, e.lastRun u o = o := by
  rw [Coordinator.publication, List.map_map]
  exact List.forall_mem_map.mpr fun _ _ _ => rfl

end History

namespace Clerk

/-- A workflow file is a file. -/
def Located (u : Url) (k : Clerk) : Prop :=
  ∀ d, k.document = some d → d.qualifies = true → u.toPath? ≠ none

/-- The run begun last, or one that is to come, is for what is known now. -/
structure Covered (u : Url) (k : Clerk) (v : History) : Prop where
  checked : ∀ d, k.document = some d → d.qualifies = true → k.settings.enabled = true →
    ∃ run, v.lastRun? u = some run ∧ run.request.settings = k.settings ∧
      (k.settings.lintsOnType = true → d.pause.isOccupied = true ∨
        run.request.text = d.text ∧ run.version = d.version)
  retired : ∀ d, k.document = some d → d.qualifies = true → k.settings.enabled = false →
    d.run = {} ∧ d.phase = .idle ∧ k.diagnostics = []
  located : Located u k

variable {u : Url} {k k' : Clerk} {v es : History} {d : OpenDocument}

theorem covered_of_idle (hk : ∀ d, k.document = some d → d.qualifies = false) :
    Covered u k v where
  checked d hd hq := absurd ((hk d hd).symm.trans hq) Bool.noConfusion
  retired d hd hq := absurd ((hk d hd).symm.trans hq) Bool.noConfusion
  located d hd hq := absurd ((hk d hd).symm.trans hq) Bool.noConfusion

theorem covered_of_none (hk : k.document = none) : Covered u k v :=
  covered_of_idle fun d hd => absurd (hk.symm.trans hd) (by simp)

/-- **A check covers all.** -/
theorem covered_check (hk : Located u k) (v : History) :
    Covered u (k.check u).1 (v ++ (k.check u).2.map .did) := by
  cases hd : k.document with
  | none =>
    rw [check, hd]
    exact covered_of_none hd
  | some d =>
    cases hq : d.qualifies with
    | false =>
      have hidle : k.check u = (k, []) := by simp [check, hd, hq]
      rw [hidle]
      refine covered_of_idle fun d' hd' => ?_
      rw [← Option.some.inj (hd.symm.trans hd')]
      exact hq
    | true =>
      have hfile := hk d hd hq
      cases hon : k.settings.enabled with
      | false =>
        rw [check_of_disabled hd hq hon]
        refine ⟨fun _ _ _ h => absurd (hon.symm.trans h) Bool.noConfusion, ?_, ?_⟩
        · rintro _ ⟨⟩ - -
          exact ⟨rfl, rfl, rfl⟩
        · exact fun _ _ _ => hfile
      | true =>
        obtain ⟨path, hpath⟩ := Option.ne_none_iff_exists'.mp hfile
        rw [check_of_enabled hd hq hon hpath]
        refine ⟨?_, fun _ _ _ h => absurd (hon.symm.trans h) Bool.noConfusion, fun _ _ _ => hfile⟩
        rintro _ ⟨⟩ - -
        have hlast : History.lastRun? u (v ++ (k.begin u d path).2.map .did) =
            some (k.nextRun u d path) :=
          History.lastRun?_start (k.nextRun u d path) rfl d.cancelRun
        exact ⟨k.nextRun u d path, hlast, rfl, fun _ => .inr ⟨rfl, rfl⟩⟩

/-- The run begun last is that from before, and what is known of the document changes only in ways
that leave it covered. -/
theorem Covered.keep (hk : Covered u k v) (hsettings : k'.settings = k.settings)
    (hes : ∀ e ∈ es, ∀ o, e.lastRun u o = o)
    (hdocument : ∀ d', k'.document = some d' → d'.qualifies = true →
      ∃ d, k.document = some d ∧ d.qualifies = true ∧
        (k.settings.lintsOnType = true → d'.pause.isOccupied = true ∨
          d'.pause = d.pause ∧ d'.text = d.text ∧ d'.version = d.version) ∧
        (k.settings.enabled = false → d.run = {} →
          d'.run = {} ∧ d'.phase = d.phase ∧ k'.diagnostics = k.diagnostics)) :
    Covered u k' (v ++ es) where
  checked d' hd' hq' hon := by
    obtain ⟨d, hd, hq, hkeep, -⟩ := hdocument d' hd' hq'
    rw [hsettings] at hon ⊢
    obtain ⟨run, hrun, hcaptured, htext⟩ := hk.checked d hd hq hon
    refine ⟨run, (History.lastRun?_append hes).trans hrun, hcaptured, fun htype => ?_⟩
    rcases hkeep htype with hpause | ⟨hpause, ht, hv⟩
    · exact .inl hpause
    · rw [hpause, ht, hv]
      exact htext htype
  retired d' hd' hq' hoff := by
    obtain ⟨d, hd, hq, -, hkeep⟩ := hdocument d' hd' hq'
    rw [hsettings] at hoff
    obtain ⟨hrun, hphase, hdiagnostics⟩ := hk.retired d hd hq hoff
    obtain ⟨hrun', hphase', hdiagnostics'⟩ := hkeep hoff hrun
    exact ⟨hrun', hphase'.trans hphase, hdiagnostics'.trans hdiagnostics⟩
  located d' hd' hq' := by
    obtain ⟨d, hd, hq, -⟩ := hdocument d' hd' hq'
    exact hk.located d hd hq

theorem Covered.idle (hk : Covered u k v) (hes : ∀ e ∈ es, ∀ o, e.lastRun u o = o) :
    Covered u k (v ++ es) :=
  hk.keep rfl hes fun d hd hq =>
    ⟨d, hd, hq, fun _ => .inr ⟨rfl, rfl, rfl⟩, fun _ hrun => ⟨hrun, rfl, rfl⟩⟩

theorem toPath?_of_qualifies {language : String} (hq : Workflow.qualifies u language = true) :
    u.toPath? ≠ none := by
  intro hnone
  simp [Workflow.qualifies, hnone] at hq

theorem Located.place {d : Document} (hu : d.url = u) (k : Clerk) : Located u (k.place d).1 := by
  rintro _ ⟨⟩ hq
  subst hu
  exact toPath?_of_qualifies hq

theorem Located.revise (hk : Located u k) {f : OpenDocument → OpenDocument}
    (hf : ∀ d, (f d).qualifies = d.qualifies) : Located u (k.revise f) := by
  intro d hd hq
  obtain ⟨old, hold, rfl⟩ := Option.map_eq_some_iff.mp hd
  exact hk old hold ((hf old).symm.trans hq)

theorem Located.endPause (hk : Located u k) : Located u k.endPause.1 := by
  intro d hd hq
  cases hold : k.document with
  | none => simp [Clerk.endPause, hold] at hd
  | some old =>
    obtain rfl : { old with pause := {} } = d := by simpa [Clerk.endPause, hold] using hd
    exact hk old hold hq

theorem covered_andThen {y : Clerk × List Effect} (hy : Located u y.1) (v : History) :
    Covered u (andThen y (check u)).1 (v ++ (andThen y (check u)).2.map .did) := by
  have hcheck := covered_check hy (v ++ y.2.map .did)
  rw [List.append_assoc, ← List.map_append] at hcheck
  exact hcheck

theorem covered_tidy (hk : Located u k) (v : History) :
    Covered u (k.tidy u).1 (v ++ (k.tidy u).2.map .did) := by
  rw [tidy]
  split
  · exact covered_andThen hk.endPause v
  · rename_i hq
    refine covered_of_idle fun d hd => ?_
    simpa [show k.document = some d from hd] using hq

theorem Covered.changed (hk : Covered u k v) (version : Int) (text : String) :
    let y := (k.revise fun d => { d with version, text }).startPause u
    Covered u y.1 (v ++ .heard (.command (.changed u version text)) :: y.2.map .did) := by
  cases hd : k.document with
  | none => exact covered_of_none (by simp [startPause, revise, hd])
  | some d =>
    simp only [startPause, revise, hd, Option.map_some]
    split
    · refine hk.keep rfl ?_ ?_
      · rw [List.forall_mem_cons, List.map_append, List.forall_mem_append]
        exact ⟨fun _ => rfl, History.lastRun_stopPause _, by simp [Entry.lastRun]⟩
      · rintro _ ⟨⟩ hq
        exact ⟨d, hd, hq, fun _ => .inl rfl, fun _ hrun => ⟨hrun, rfl, rfl⟩⟩
    · -- the document is no workflow file, or edits are not checked
      rename_i hoff
      refine hk.keep rfl (by simp [Entry.lastRun]) ?_
      rintro _ ⟨⟩ hq
      have hq' : d.qualifies = true := hq
      refine ⟨d, hd, hq, fun htype => absurd ?_ hoff, fun _ hrun => ⟨hrun, rfl, rfl⟩⟩
      rw [hq', htype]
      rfl

theorem Covered.finish (hk : Covered u k v) (run : Run) (result : RunEnd) :
    Covered u (k.finish run result).1
      (v ++ .heard (.finished run result) :: (k.finish run result).2.map .did) := by
  rw [Clerk.finish]
  split
  · exact hk.idle (by simp [Entry.lastRun])
  · rename_i d hd
    split
    · rename_i ht
      refine hk.keep rfl ?_ ?_
      · rw [List.forall_mem_cons, List.map_append, List.forall_mem_append]
        exact ⟨fun _ => rfl, History.lastRun_publication run result, by simp [Entry.lastRun]⟩
      · rintro _ ⟨⟩ hq
        refine ⟨d, hd, hq, fun _ => .inr ⟨rfl, rfl, rfl⟩, fun _ hrun => ?_⟩
        -- without a run, none could end
        rw [hrun] at ht
        cases ht
    · exact hk.idle (by simp [Entry.lastRun])

theorem Covered.elapse (hk : Covered u k v) (t : Ticket) :
    Covered u (k.elapse u t).1 (v ++ .heard (.elapsed u t) :: (k.elapse u t).2.map .did) := by
  rw [Clerk.elapse]
  split
  · exact hk.idle (by simp [Entry.lastRun])
  · rename_i d hd
    split
    · rw [List.append_cons]
      refine covered_check ?_ _
      rintro _ ⟨⟩ hq
      exact hk.located d hd hq
    · exact hk.idle (by simp [Entry.lastRun])

theorem Covered.obey (hk : Covered u k v) (c : Command)
    (hc : (Message.command c).isFor u = true) :
    Covered u (k.obey u c).1 (v ++ .heard (.command c) :: (k.obey u c).2.map .did) := by
  rw [List.append_cons]
  cases c with
  | opened d => exact covered_andThen (.place (by simpa [Message.isFor] using hc) k) _
  | changed w version text =>
    obtain rfl : w = u := by simpa [Message.isFor] using hc
    rw [← List.append_cons]
    exact hk.changed version text
  | saved w text =>
    have hrevised : Located u (k.revise fun d => { d with text := text.getD d.text }) :=
      hk.located.revise fun _ => rfl
    exact covered_andThen hrevised.endPause _
  | closed w =>
    refine covered_of_none ?_
    show (k.close u).1.document = none
    rw [close]
    split <;> simp_all
  | focused w => cases hc
  | configured s =>
    have hset : Located u { k with settings := s } := hk.located
    exact covered_tidy hset _
  | rooted workspace =>
    have hheard : Covered u k (v ++ [.heard (.command (.rooted workspace))]) :=
      hk.idle (by simp [Entry.lastRun])
    refine hheard.keep rfl (fun e he => absurd he List.not_mem_nil) fun d hd hq => ?_
    exact ⟨d, hd, hq, fun _ => .inr ⟨rfl, rfl, rfl⟩, fun _ hrun => ⟨hrun, rfl, rfl⟩⟩
  | shutdown => exact covered_of_none rfl

theorem stable_covered (u : Url) : Stable u fun k v => k.Sound v ∧ Covered u k v where
  wait {k v} hk n hn := by
    refine ⟨(stable_sound u).wait hk.1 n hn, ?_⟩
    exact ⟨hk.2.checked, hk.2.retired, hk.2.located⟩
  handle {k v} hk m hm hv := by
    refine ⟨(stable_sound u).handle hk.1 m hm hv, ?_⟩
    cases hs : k.stopped with
    | true =>
      rw [handle_of_stopped hs]
      exact covered_of_none (hk.1.shut hs)
    | false =>
      rw [handle_of_running hs hm]
      cases m with
      | command c => exact hk.2.obey c hm
      | elapsed w t =>
        obtain rfl : w = u := by simpa [Message.isFor] using hm
        exact hk.2.elapse t
      | finished run result => exact hk.2.finish run result

end Clerk

/-- An open workflow file after a history: what was begun last for it, or is to come, is for what is
known now. -/
structure Coordinator.Covers (c : Coordinator) (h : History) (u : Url) (d : OpenDocument) :
    Prop where
  /-- When edits are checked, the run has the present text, or the timer of the pause is still to
  run out. -/
  enabled : c.settings.enabled = true →
    ∃ run, h.lastRun? u = some run ∧ run.request.settings = c.settings ∧
      (c.settings.trigger = .onType → (∃ t, d.pause.occupant = some t ∧ h.IsTicking u t) ∨
        run.request.text = d.text ∧ run.version = d.version)
  disabled : c.settings.enabled = false →
    d.run.isOccupied = false ∧ d.phase = .idle ∧ c.published.get u = []

namespace Life

theorem covered {start : Launch} {c : Coordinator} {h : History} (hl : Life start c h) (u : Url) :
    (c.clerk u).Covered u (h.file u) :=
  (hl.clerk_induction (Clerk.stable_covered u)
    ⟨Clerk.sound_blank start, Clerk.covered_of_none rfl⟩).2

/-- **No edit goes unchecked.** Of every open workflow file, the run begun last is for the settings
in force and for the present text, or one is to come; with checking off, nothing is left of it. -/
theorem covers {start : Launch} {c : Coordinator} {h : History} {u : Url} {d : OpenDocument}
    (hl : Life start c h) (hd : c.documents.get? u = some d) (hq : d.qualifies = true) :
    c.Covers h u d := by
  have hcovered := hl.covered u
  constructor
  · -- a pause that is taken has a timer still to run out
    intro hon
    have hchecked := hcovered.checked d hd hq hon
    rw [History.lastRun?_file] at hchecked
    obtain ⟨run, hrun, hsettings, htext⟩ := hchecked
    refine ⟨run, hrun, hsettings, fun htype => (htext (decide_eq_true htype)).imp ?_ id⟩
    intro hpause
    obtain ⟨t, ht⟩ := Option.isSome_iff_exists.mp hpause
    exact ⟨t, ht, hl.isTicking_iff.mpr (occupant_pause_iff.mpr ⟨d, hd, ht⟩)⟩
  · intro hoff
    obtain ⟨hrun, hphase, hdiagnostics⟩ := hcovered.retired d hd hq hoff
    exact ⟨by rw [hrun]; rfl, hphase, hdiagnostics⟩

/-- An edit waits for its pause, while the run begun at the start has the settings in force. Then
the timer runs out, and the run begun last has the text of the edit. -/
theorem covers_of_edit :
    let edit : Message := .command (.changed Launch.workflowUrl 2 "on: pull_request\n")
    let x := Launch.workflow.after [edit]
    let y := Launch.workflow.after [edit, .elapsed Launch.workflowUrl ⟨1⟩]
    (∃ d, x.1.documents.get? Launch.workflowUrl = some d ∧ d.pause.occupant = some ⟨1⟩ ∧
      x.1.Covers x.2 Launch.workflowUrl d) ∧
    ∃ d, y.1.documents.get? Launch.workflowUrl = some d ∧ d.pause.occupant = none ∧
      y.1.Covers y.2 Launch.workflowUrl d := by
  intro edit x y
  have hx : Life Launch.workflow x.1 x.2 := Life.after Launch.workflow _ (by decide +kernel)
  have hy : Life Launch.workflow y.1 y.2 := Life.after Launch.workflow _ (by decide +kernel)
  let d : OpenDocument :=
    { version := 2, text := "on: pull_request\n", qualifies := true, phase := .running
      run := ⟨some ⟨0⟩⟩, pause := ⟨some ⟨1⟩⟩ }
  have hd : x.1.documents.get? Launch.workflowUrl = some d := by decide +kernel
  have he : y.1.documents.get? Launch.workflowUrl =
      some { d with run := ⟨some ⟨2⟩⟩, pause := {} } := by decide +kernel
  exact ⟨⟨d, hd, rfl, covers hx hd rfl⟩, ⟨_, he, rfl, covers hy he rfl⟩⟩

end Life

end WorkflowLint

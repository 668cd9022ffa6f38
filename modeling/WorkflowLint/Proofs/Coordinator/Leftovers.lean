import WorkflowLint.Proofs.Coordinator.HostView
/-!
# Diagnostics that are left behind

The diagnostics of a document are dropped when it is closed and when checking is switched off, but
not when it is opened again as something else than a workflow file. They are then left behind: no
run replaces them and closing does not drop them, until the document is opened as a workflow file
again. By `Life.diagnostics_iff` this is the only way: in every life, the diagnostics of a document
are those of an open workflow file unless they were left behind.

A document that is no workflow file has no run (`Desk.Idle`), so no run that ends after the opening
tells anything of it.
-/

namespace WorkflowLint

/-- The diagnostics of a document were left behind: it was opened as something else than a workflow
file while it had some, and not as a workflow file since. -/
def History.LeftBehind (u : Url) : History → Prop :=
  Since (fun pre d => d.url = u ∧ d.isWorkflow = false ∧ pre.lastPublished u ≠ [])
    (fun _ e => ∃ d, e.opening? u = some d ∧ d.isWorkflow = true)

namespace Desk

variable {u : Url} {k k' : Desk}

/-- What is no workflow file has no run. -/
def Idle (k : Desk) : Prop :=
  ∀ d, k.document = some d → d.qualifies = false → d.run = {} ∧ d.phase = .idle

theorem idle_step (hk : Idle k) (hs : Step u k k') : Idle k' := by
  intro d hd hq
  cases hs with
  | away | deaf | configured | lateTimer | lateRun | missing => exact hk d hd hq
  | opened =>
    obtain rfl := Option.some.inj hd
    exact ⟨rfl, rfl⟩
  | changed | saved =>
    obtain ⟨d', hd', rfl⟩ := Option.map_eq_some_iff.mp hd
    exact hk d' hd' hq
  | scheduled hd' | unpaused hd' | elapsed hd' =>
    obtain rfl := Option.some.inj hd
    have hidle := hk _ hd' hq
    exact hidle
  | begun _ hq' | retired _ hq' =>
    obtain rfl := Option.some.inj hd
    exact absurd (hq'.symm.trans hq) Bool.noConfusion
  | ended _ _ hd' ht =>
    obtain rfl := Option.some.inj hd
    rw [(hk _ hd' hq).1] at ht
    cases ht
  | closed | stopped => cases hd

/-- There are diagnostics, but no open workflow file that they are of. -/
def Stranded (k : Desk) : Prop :=
  k.diagnostics ≠ [] ∧ ∀ d, k.document = some d → d.qualifies = false

theorem not_stranded {d : OpenDocument} (hd : k.document = some d) (hq : d.qualifies = true) :
    ¬ Stranded k := fun hk =>
  absurd (hq.symm.trans (hk.2 d hd)) Bool.noConfusion

end Desk

namespace History

variable {u : Url} {h es : History}

theorem leftBehind_append (hes : ∀ e ∈ es, e.opening? u = none) :
    LeftBehind u (h ++ es) ↔ LeftBehind u h := by
  refine since_append_iff (fun pre d hd hwrong => ?_) fun e he _ => ?_
  · have hnone := hes _ hd
    rw [Entry.opening?, if_pos hwrong.1] at hnone
    cases hnone
  · rintro ⟨d, hd, -⟩
    exact absurd ((hes e he).symm.trans hd) (by simp)

theorem leftBehind_opened {d : Document} (hd : d.url = u) (hes : ∀ e ∈ es, e.opening? u = none) :
    LeftBehind u (h ++ .heard (.command (.opened d)) :: es) ↔
      d.isWorkflow = false ∧ (h.lastPublished u ≠ [] ∨ LeftBehind u h) := by
  have hopening : Entry.opening? u (.heard (.command (.opened d))) = some d := if_pos hd
  have hnone : ∀ pre d', .heard (.command (.opened d')) ∈ es →
      ¬ (d'.url = u ∧ d'.isWorkflow = false ∧ lastPublished u pre ≠ []) := by
    rintro pre d' hd' ⟨hu, -⟩
    have hclash := hes _ hd'
    rw [Entry.opening?, if_pos hu] at hclash
    cases hclash
  cases hw : d.isWorkflow with
  | true =>
    refine iff_of_false (fun hleft => ?_) fun hfalse => absurd hfalse.1 (by simp)
    obtain ⟨-, -, -, -, -, -, hright⟩ := since_of_append hleft fun pre d' hd' hwrong => by
      rcases List.mem_cons.mp hd' with heq | hd'
      · obtain rfl : d' = d := by simpa using heq
        exact absurd (hw.symm.trans hwrong.2.1) (by simp)
      · exact hnone pre d' hd' hwrong
    exact hright _ List.mem_cons_self ⟨d, hopening, hw⟩
  | false =>
    rw [LeftBehind, since_opened_iff hnone]
    · simp [hd, hw]
    · rw [List.forall_mem_cons]
      refine ⟨fun _ => ?_, fun e he _ => ?_⟩
      · rintro ⟨d', hd', hw'⟩
        obtain rfl := Option.some.inj (hopening.symm.trans hd')
        exact absurd (hw.symm.trans hw') (by simp)
      · rintro ⟨d', hd', -⟩
        exact absurd ((hes e he).symm.trans hd') (by simp)

end History

namespace Desk

variable {u : Url} {k k' : Desk}

theorem Idle.qualifies {d : OpenDocument} {t : Ticket} (hk : Idle k) (hd : k.document = some d)
    (ht : d.run.occupant = some t) : d.qualifies = true := by
  cases hq : d.qualifies with
  | true => rfl
  | false =>
    rw [(hk d hd hq).1] at ht
    cases ht

theorem opening?_did (es : List Effect) : ∀ e ∈ es.map Entry.did, e.opening? u = none :=
  List.forall_mem_map.mpr fun _ _ => rfl

theorem stranded_append {es : History} (hk : Stranded k ↔ History.LeftBehind u k.history)
    (hh : k'.history = k.history ++ es) (hes : ∀ e ∈ es, e.opening? u = none)
    (hsame : Stranded k' ↔ Stranded k) : Stranded k' ↔ History.LeftBehind u k'.history := by
  rw [hh, History.leftBehind_append hes]
  exact hsame.trans hk

theorem stranded_step (hidle : Idle k)
    (hdiagnostics : k.stopped = false → k.diagnostics = History.lastPublished u k.history)
    (hk : k.stopped = false → (Stranded k ↔ History.LeftBehind u k.history)) (hs : Step u k k')
    (hrun : k'.stopped = false) : Stranded k' ↔ History.LeftBehind u k'.history := by
  cases hs with
  | away _ hes =>
    exact stranded_append (hk hrun) rfl (fun e he => Entry.opening?_of_not_concerns (hes e he)) .rfl
  | deaf hstop => exact absurd (hstop.symm.trans hrun) Bool.noConfusion
  | @opened d _ hd =>
    -- the document is replaced, and its diagnostics stay
    rw [History.leftBehind_opened hd (opening?_did _), ← hdiagnostics hrun, ← hk hrun]
    simp only [Stranded, Option.some.injEq, forall_eq']
    show k.diagnostics ≠ [] ∧ d.isWorkflow = false ↔ _
    tauto
  | changed | saved =>
    refine stranded_append (hk hrun) rfl (by simp [Entry.opening?]) ?_
    cases hd : k.document <;> simp [Stranded, hd]
  | scheduled hd hq =>
    exact stranded_append (hk hrun) rfl (opening?_did _)
      (iff_of_false (not_stranded rfl hq) (not_stranded hd hq))
  | unpaused hd =>
    exact stranded_append (hk hrun) rfl (opening?_did _) (by simp [Stranded, hd])
  | elapsed hd =>
    exact stranded_append (hk hrun) rfl (by simp [Entry.opening?]) (by simp [Stranded, hd])
  | @closed d hd =>
    refine stranded_append (hk hrun) rfl (List.forall_mem_cons.mpr ⟨rfl, opening?_did _⟩) ?_
    cases hq : d.qualifies with
    | true => exact iff_of_false (by simp [Stranded]) (not_stranded hd hq)
    | false => simp [Stranded, hd, hq]
  | missing | configured | lateTimer | lateRun =>
    exact stranded_append (hk hrun) rfl (by simp [Entry.opening?]) .rfl
  | begun hd hq =>
    exact stranded_append (hk hrun) rfl (opening?_did _)
      (iff_of_false (not_stranded rfl hq) (not_stranded hd hq))
  | @retired d es hd hq _ hes =>
    refine stranded_append (hk hrun) rfl ?_
      (iff_of_false (not_stranded rfl hq) (not_stranded hd hq))
    simp only [List.forall_mem_append, List.forall_mem_cons]
    exact ⟨⟨opening?_did _, rfl, fun e he => Entry.opening?_of_not_concerns (hes e he)⟩, rfl,
      List.forall_mem_nil _⟩
  | @ended d run result es _ _ hd ht hes =>
    have hq := hidle.qualifies hd ht
    refine stranded_append (hk hrun) rfl ?_
      (iff_of_false (not_stranded rfl hq) (not_stranded hd hq))
    simp only [List.forall_mem_append, List.forall_mem_cons]
    exact ⟨rfl, ⟨opening?_did _, fun e he => Entry.opening?_of_not_concerns (hes e he)⟩, rfl,
      List.forall_mem_nil _⟩
  | stopped => exact absurd hrun Bool.noConfusion

end Desk

/-- What is no workflow file has no run, in every life. -/
theorem Life.idle {start : Launch} {c : Coordinator} {h : History} (hl : Life start c h) (u : Url) :
    Desk.Idle (c.desk u h) :=
  hl.desk_induction (by simp [Desk.Idle, Desk.blank]) fun _ _ => Desk.idle_step

/-- **Diagnostics outlive their document only when they are left behind.** While a coordinator runs,
it holds the diagnostics of each document that the host was told last, and they are those of an open
workflow file unless they were left behind. -/
theorem Life.diagnostics_iff {start : Launch} {c : Coordinator} {h : History} (hl : Life start c h)
    (hrun : c.stopped = false) (u : Url) :
    c.published.get u = h.lastPublished u ∧
      ((h.lastPublished u ≠ [] → ∃ d, c.documents.get? u = some d ∧ d.qualifies = true) ↔
        ¬ h.LeftBehind u) := by
  have hpublished := hl.published_eq hrun u
  have hstranded : Desk.Stranded (c.desk u h) ↔ h.LeftBehind u := by
    -- `stranded_step` needs the other two invariants at each step
    refine (hl.desk_induction (P := fun k => Desk.Idle k ∧
        (k.stopped = false → k.diagnostics = k.history.lastPublished u) ∧
        (k.stopped = false → (Desk.Stranded k ↔ k.history.LeftBehind u)))
      ⟨by simp [Desk.Idle, Desk.blank], fun _ => rfl, fun _ => ?_⟩
      fun k k' hk hs => ?_).2.2 hrun
    · exact iff_of_false (by simp [Desk.Stranded, Desk.blank])
        (by simp [History.LeftBehind, History.Since, Desk.blank])
    · obtain ⟨hidle, hdiagnostics, hk⟩ := hk
      exact ⟨Desk.idle_step hidle hs, Desk.diagnostics_step hdiagnostics hs,
        Desk.stranded_step hidle hdiagnostics hk hs⟩
  refine ⟨hpublished, ?_⟩
  rw [← hstranded, ← hpublished]
  constructor
  · intro hopen hleft
    obtain ⟨d, hd, hq⟩ := hopen hleft.1
    exact Desk.not_stranded (k := c.desk u h) hd hq hleft
  · intro hleft hsome
    by_contra hnone
    refine hleft ⟨hsome, fun d hd => ?_⟩
    rw [← Bool.not_eq_true]
    exact fun hq => hnone ⟨d, hd, hq⟩

/-- A finding of a workflow file stays when the file is opened as plain text. -/
theorem published_after_reopening :
    let x := Launch.workflow.after
      [.finished (Launch.workflowRun 0) Launch.oneFinding, .command (.opened Launch.workflowNotes)]
    Life .workflow x.1 x.2 ∧ x.1.stopped = false ∧
      x.2.lastPublished Launch.workflowUrl ≠ [] ∧ x.1.published.get Launch.workflowUrl ≠ [] ∧
      (x.1.documents.get? Launch.workflowUrl).map (·.qualifies) = some false := by
  refine ⟨Life.after _ _ ?_, ?_, ?_, ?_, ?_⟩
  all_goals decide +kernel

/-- A finding of a workflow file is not left behind while the file is open. -/
theorem Life.diagnostics_iff_of_finding :
    let x := Launch.workflow.after [.finished (Launch.workflowRun 0) Launch.oneFinding]
    x.1.stopped = false ∧ x.1.published.get Launch.workflowUrl = x.2.lastPublished Launch.workflowUrl ∧
      ((x.2.lastPublished Launch.workflowUrl ≠ [] →
        ∃ d, x.1.documents.get? Launch.workflowUrl = some d ∧ d.qualifies = true) ↔
          ¬ x.2.LeftBehind Launch.workflowUrl) :=
  ⟨by decide +kernel, Life.diagnostics_iff (Life.after .workflow _ (by decide +kernel))
    (by decide +kernel) Launch.workflowUrl⟩

end WorkflowLint

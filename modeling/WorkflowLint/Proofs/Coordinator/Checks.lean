import WorkflowLint.Proofs.Coordinator.Coverage
import WorkflowLint.Proofs.Coordinator.Settlement
import WorkflowLint.Proofs.WorkflowFiles
/-!
# Every check is answered

A workflow file that is checked gets an answer in the same turn: a run of it begins, or with checking
off, it is settled (`OpenDocument.Answered`). The one way out would be a URL that is no path, and
workflow files have paths (`Clerk.Located`). So it is the same for every message after which a
document is checked (`Message.prompts`), whatever else the coordinator has to do in that turn
(`workflow_files_are_checked`).
-/

namespace WorkflowLint

/-- Whether a document is checked after a message, unless the message is late. Edits are not checked
before their pause is over. -/
def Message.prompts (u : Url) : Message → Bool
  | .command (.opened d) => d.url = u
  | .command (.saved w _) => w = u
  | .command (.configured _) => true
  | .elapsed w _ => w = u
  | _ => false

/-- A document was checked: one run of it began, which is in the slot; or, with checking off, it was
settled, and no run of it began. -/
structure OpenDocument.Answered (o : OpenDocument) (u : Url) (settings : Settings)
    (es : List Effect) : Prop where
  begins : settings.enabled = true → ∃ run,
    (∀ other, .start other ∈ es ∧ other.url = u ↔ other = run) ∧
      o.run.occupant = some run.ticket ∧ o.phase = .running ∧ run.version = o.version ∧
      run.request.text = o.text ∧ run.request.settings = settings
  settles : settings.enabled = false →
    .emit (.settled u) ∈ es ∧ ∀ run, .start run ∈ es → run.url ≠ u

/-- A document of the host is open and was checked under settings. -/
def Coordinator.Answers (settings : Settings) (u : Url) (d : Document)
    (x : Coordinator × List Effect) : Prop :=
  ∃ o, x.1.documents.get? u = some o ∧ o.version = d.version ∧ o.text = d.text ∧
    o.Answered u settings x.2

section Clerks

variable {u : Url} {k : Clerk} {o : OpenDocument} {settings : Settings} {es fs : List Effect}

theorem OpenDocument.Answered.congr (ho : o.Answered u settings fs)
    (hmem : ∀ e : Effect, e.isFor u [] = true → (e ∈ es ↔ e ∈ fs)) : o.Answered u settings es where
  begins hon := by
    obtain ⟨run, hrun, hrest⟩ := ho.begins hon
    refine ⟨run, fun other => ?_, hrest⟩
    rw [← hrun other]
    exact and_congr_left fun hu => hmem _ (decide_eq_true hu)
  settles hoff := by
    obtain ⟨hsettled, hnone⟩ := ho.settles hoff
    have hemit : (Effect.emit (.settled u)).isFor u [] = true := decide_eq_true rfl
    refine ⟨(hmem _ hemit).mpr hsettled, fun run hrun hu => ?_⟩
    have hstart : (Effect.start run).isFor u [] = true := decide_eq_true hu
    exact hnone run ((hmem _ hstart).mp hrun) hu

theorem OpenDocument.not_isFor_cancel (d : OpenDocument) :
    ∀ e ∈ d.cancel, e.isFor u [] = false := by
  rw [cancel, List.forall_mem_append]
  exact ⟨List.forall_mem_map.mpr fun _ _ => rfl, List.forall_mem_map.mpr fun _ _ => rfl⟩

namespace Clerk

theorem unchanged_check (u : Url) (k : Clerk) : (k.check u).1.settings = k.settings ∧
    (k.check u).1.document.map Desk.sheet = k.document.map Desk.sheet := by
  unfold check
  split
  · exact ⟨rfl, rfl⟩
  · rename_i d hd
    split
    · exact ⟨rfl, rfl⟩
    · split
      · exact ⟨rfl, by rw [hd]; rfl⟩
      · split
        · exact ⟨rfl, rfl⟩
        · exact ⟨rfl, by rw [hd]; rfl⟩

/-- **A check of a workflow file is answered.** -/
theorem answered_check (hk : Located u k) (ho : (k.check u).1.document = some o)
    (hq : o.qualifies = true) : o.Answered u (k.check u).1.settings (k.check u).2 := by
  obtain ⟨hsettings, hsheet⟩ := unchanged_check u k
  rw [ho] at hsheet
  obtain ⟨d, hd, hdo⟩ := Option.map_eq_some_iff.mp hsheet.symm
  obtain ⟨-, -, hqd⟩ : d.version = o.version ∧ d.text = o.text ∧ d.qualifies = o.qualifies := by
    simpa [Desk.sheet] using hdo
  have hqualifies : d.qualifies = true := hqd.trans hq
  rw [hsettings]
  cases hon : k.settings.enabled with
  | false =>
    rw [check_of_disabled hd hqualifies hon]
    refine ⟨fun h => absurd (hon.symm.trans h) Bool.noConfusion, fun _ => ⟨by simp [retire], ?_⟩⟩
    intro run hrun
    simp [retire, OpenDocument.cancelRun] at hrun
  | true =>
    obtain ⟨path, hpath⟩ := Option.ne_none_iff_exists'.mp (hk d hd hqualifies)
    rw [check_of_enabled hd hqualifies hon hpath] at ho ⊢
    obtain rfl := Option.some.inj ho
    refine ⟨fun _ => ⟨k.nextRun u d path, fun other => ?_, rfl, rfl, rfl, rfl, rfl⟩,
      fun h => absurd (hon.symm.trans h) Bool.noConfusion⟩
    have hstart : .start other ∈ (k.begin u d path).2 ↔ other = k.nextRun u d path := by
      simp [begin, OpenDocument.cancelRun]
    rw [hstart]
    exact and_iff_left_of_imp fun hother => hother ▸ rfl

theorem answered_andThen {y : Clerk × List Effect} (hy : Located u y.1)
    (hquiet : ∀ e ∈ y.2, e.isFor u [] = false) (ho : (andThen y (check u)).1.document = some o)
    (hq : o.qualifies = true) :
    o.Answered u (andThen y (check u)).1.settings (andThen y (check u)).2 := by
  refine (answered_check hy ho hq).congr fun e he => ?_
  rw [andThen, List.mem_append]
  exact or_iff_right fun hmem => absurd ((hquiet e hmem).symm.trans he) Bool.noConfusion

theorem not_isFor_place (d : Document) (k : Clerk) : ∀ e ∈ (k.place d).2, e.isFor u [] = false := by
  show ∀ e ∈ k.document.elim [] OpenDocument.cancel, _
  cases k.document with
  | none => exact fun _ he => absurd he List.not_mem_nil
  | some old => exact old.not_isFor_cancel

theorem not_isFor_endPause (k : Clerk) : ∀ e ∈ k.endPause.2, e.isFor u [] = false := by
  rw [endPause]
  split
  · exact fun _ he => absurd he List.not_mem_nil
  · rename_i d _
    exact fun e he => d.not_isFor_cancel e (List.mem_append_left _ he)

theorem answered_obey {command : Command} (hk : Located u k)
    (hm : (Message.command command).prompts u = true) (ho : (k.obey u command).1.document = some o)
    (hq : o.qualifies = true) :
    o.Answered u (k.obey u command).1.settings (k.obey u command).2 := by
  cases command with
  | opened d => exact answered_andThen (.place (of_decide_eq_true hm) k) (not_isFor_place d k) ho hq
  | saved w text =>
    have hrevised : Located u (k.revise fun d => { d with text := text.getD d.text }) :=
      hk.revise fun _ => rfl
    exact answered_andThen hrevised.endPause (not_isFor_endPause _) ho hq
  | configured s =>
    have hset : Located u { k with settings := s } := hk
    simp only [obey, tidy] at ho ⊢
    split at ho
    · rename_i htidy
      rw [if_pos htidy]
      exact answered_andThen hset.endPause (not_isFor_endPause _) ho hq
    · rename_i hidle
      have hd : k.document = some o := ho
      exact absurd (by simpa [hd] using hq) hidle
  | changed | closed | focused | rooted | shutdown => cases hm

theorem answered_handle {m : Message} (hk : Located u k) (hs : k.stopped = false)
    (hm : m.prompts u = true)
    (hnow : ∀ w t, m = .elapsed w t → ∃ d, k.document = some d ∧ d.pause.occupant = some t)
    (ho : (k.handle u m).1.document = some o) (hq : o.qualifies = true) :
    o.Answered u (k.handle u m).1.settings (k.handle u m).2 := by
  have hfor : m.isFor u = true := by
    cases m with
    | command command => cases command <;> first | exact hm | rfl | cases hm
    | elapsed w t => exact hm
    | finished run result => cases hm
  rw [handle_of_running hs hfor] at ho ⊢
  cases m with
  | command command => exact answered_obey hk hm ho hq
  | elapsed w t =>
    obtain ⟨d, hd, ht⟩ := hnow w t rfl
    have hcheck : k.elapse u t = check u { k with document := some { d with pause := {} } } := by
      simp [elapse, hd, ht]
    have hended : Located u { k with document := some { d with pause := {} } } := by
      rintro _ ⟨⟩ hq'
      exact hk d hd hq'
    dsimp only at ho ⊢
    rw [hcheck] at ho ⊢
    exact answered_check hended ho hq
  | finished run result => cases hm

end Clerk

end Clerks

/-! ## Coordinators -/

namespace Coordinator

variable {u : Url} {c : Coordinator} {h : History} {d : Document}

theorem Tends.mem_iff {x : Coordinator × List Effect} {y : Clerk × List Effect}
    (ht : Tends u c x y) {e : Effect} (he : e.isFor u [] = true) : e ∈ x.2 ↔ e ∈ y.2 := by
  rw [← ht.effects, List.mem_filter]
  exact (and_iff_left (Effect.isOfDocument_of_isFor he)).symm

theorem mem_iff_of_file {es fs : List Effect}
    (hfile : History.file u (h ++ es.map .did) = h.file u ++ fs.map .did) {e : Effect}
    (he : e.isFor u [] = true) : e ∈ es ↔ e ∈ fs := by
  have hcount : ∀ h : History, (h.file u).count (.did e) = h.count (.did e) := fun h =>
    List.count_filter (Effect.isFor_mono (fun _ ht => absurd ht List.not_mem_nil) he)
  have hmem : ∀ es : List Effect, e ∈ es ↔ 0 < (es.map Entry.did).count (.did e) := fun es => by
    rw [List.count_pos_iff, List.mem_map_of_injective fun _ _ => Entry.did.inj]
  have hsum := congrArg (List.count (Entry.did e)) hfile
  rw [hcount, List.count_append, List.count_append, hcount, Nat.add_left_cancel_iff] at hsum
  rw [hmem, hmem fs, hsum]

theorem answers_of_clerk {x : Coordinator × List Effect} {y : Clerk × List Effect}
    {settings : Settings} (hdocument : x.1.documents.get? u = y.1.document)
    (hmem : ∀ e : Effect, e.isFor u [] = true → (e ∈ x.2 ↔ e ∈ y.2))
    (hsettings : y.1.settings = settings)
    (hsheet : y.1.document.map Desk.sheet = some (Desk.sheetOf d)) (hq : d.isWorkflow = true)
    (hanswered : ∀ o, y.1.document = some o → o.qualifies = true →
      o.Answered u y.1.settings y.2) :
    Answers settings u d x := by
  subst hsettings
  obtain ⟨o, ho, hversion, htext, hqualifies⟩ := Desk.exists_of_sheet hsheet
  refine ⟨o, hdocument.trans ho, hversion, htext, ?_⟩
  exact (hanswered o ho (hqualifies.trans hq)).congr hmem

/-- **A workflow file that is opened is checked, whatever was before.** -/
theorem answers_openDocument (hq : d.isWorkflow = true) (c : Coordinator) :
    Answers c.settings d.url d (openDocument d c) := by
  have ht := tends_openDocument d c
  have hplaced : Clerk.Located d.url ((c.clerk d.url).place d).1 := .place rfl _
  obtain ⟨hsettings, hsheet⟩ := Clerk.unchanged_check d.url ((c.clerk d.url).place d).1
  exact answers_of_clerk (congrArg Clerk.document ht.self) (fun e he => ht.mem_iff he) hsettings
    hsheet hq fun o => Clerk.answered_andThen hplaced (Clerk.not_isFor_place d _)

end Coordinator

namespace Life

variable {start : Launch} {c : Coordinator} {h : History} {u : Url} {d : Document} {m : Message}

theorem exists_path (hl : Life start c h) (hrun : c.stopped = false) (hd : h.document? u = some d)
    (hq : d.isWorkflow = true) : ∃ p, u.toPath? = some p := by
  have hsheet := hl.sheet_eq hrun u
  rw [hd] at hsheet
  obtain ⟨o, ho, -, -, hqualifies⟩ := Desk.exists_of_sheet hsheet
  exact Option.ne_none_iff_exists'.mp ((hl.covered u).located o ho (hqualifies.trans hq))

theorem answers_check (hl : Life start c h) (hrun : c.stopped = false)
    (hd : h.document? u = some d) (hq : d.isWorkflow = true) :
    Coordinator.Answers (h.settings start.settings) u d (Coordinator.check u c) := by
  have ht := Coordinator.tends_check u c
  obtain ⟨hsettings, hsheet⟩ := Clerk.unchanged_check u (c.clerk u)
  have hgiven := hl.sheet_eq hrun u
  rw [hd] at hgiven
  exact Coordinator.answers_of_clerk (congrArg Clerk.document ht.self) (fun e he => ht.mem_iff he)
    (hsettings.trans (hl.settings_eq hrun)) (hsheet.trans hgiven) hq fun o =>
      Clerk.answered_check (hl.covered u).located

theorem exists_of_not_isLate {w : Url} {t : Ticket} (hlate : ¬ c.IsLate (.elapsed w t)) :
    ∃ o, c.documents.get? w = some o ∧ o.pause.occupant = some t := by
  by_contra hnone
  exact hlate fun o ho ht => hnone ⟨o, ho, ht⟩

theorem admits_of_prompts (hl : Life start c h) (hm : m.prompts u = true) (hlate : ¬ c.IsLate m) :
    h.Admits m := by
  cases m with
  | command command => trivial
  | elapsed w t =>
    have hslot := Life.occupant_pause_iff.mpr (exists_of_not_isLate hlate)
    exact (hl.isTicking_iff.mpr hslot).1
  | finished run result => cases hm

/-- **A message after which a workflow file is checked is answered in the same turn.** -/
theorem answers_handle (hl : Life start c h) (hrun : c.stopped = false) (hm : m.prompts u = true)
    (hlate : ¬ c.IsLate m) (hd : History.document? u (h ++ [.heard m]) = some d)
    (hq : d.isWorkflow = true) :
    Coordinator.Answers (History.settings start.settings (h ++ [.heard m])) u d (c.handle m) := by
  have hadmits := hl.admits_of_prompts hm hlate
  have hnext : Life start (c.handle m).1 (h ++ .heard m :: (c.handle m).2.map .did) :=
    .hears hl hadmits
  have hgoes : (c.handle m).1.stopped = false := by
    have hno : .heard (.command .shutdown) ∉ h := fun hend =>
      absurd (hrun.symm.trans (hl.stopped_of_shutdown hend)) Bool.noConfusion
    refine (Coordinator.running_handle hrun hno hadmits ?_).1
    rintro rfl
    cases hm
  -- what is done tells nothing of what the host gave
  have hsettings := hnext.settings_eq hgoes
  have hsheet := hnext.sheet_eq hgoes u
  rw [List.append_cons] at hsettings hsheet
  rw [History.settings, History.last?_append, History.last?_settings?_did, Option.none_or]
    at hsettings
  rw [History.document?, List.foldl_append, History.foldl_revise_did, ← History.document?, hd]
    at hsheet
  obtain ⟨n, -, -, hclerk, hfile⟩ := Coordinator.acts_hear (s := (c, h)) hl.kept u m
  have hdocument : (c.handle m).1.documents.get? u =
      (((c.clerk u).wait n).handle u m).1.document := congrArg Clerk.document hclerk
  have hkept : (c.handle m).1.settings = (((c.clerk u).wait n).handle u m).1.settings :=
    congrArg Clerk.settings hclerk
  rw [show (Coordinator.hear (c, h) m).2 = (h ++ [.heard m]) ++ (c.handle m).2.map .did from
    List.append_cons ..] at hfile
  refine Coordinator.answers_of_clerk hdocument (fun e he => Coordinator.mem_iff_of_file hfile he)
    (hkept.symm.trans hsettings) (hdocument ▸ hsheet) hq fun o => ?_
  refine Clerk.answered_handle (hl.covered u).located hrun hm fun w t hwt => ?_
  subst hwt
  obtain rfl : w = u := of_decide_eq_true hm
  exact exists_of_not_isLate hlate

end Life

/-- Every check of a workflow file that the host has open is answered. -/
structure Coordinator.Attends (start : Settings) (c : Coordinator) (h : History) : Prop where
  located : ∀ u d, h.document? u = some d → d.isWorkflow = true → ∃ p, u.toPath? = some p
  checked : ∀ u d, h.document? u = some d → d.isWorkflow = true →
    Answers (h.settings start) u d (check u c)
  /-- With the document and the settings as the message leaves them. -/
  prompted : ∀ u d m, m.prompts u = true → ¬ c.IsLate m →
    History.document? u (h ++ [.heard m]) = some d → d.isWorkflow = true →
    Answers (History.settings start (h ++ [.heard m])) u d (c.handle m)

/-- **Workflow files are told by the ends of their paths, and every check of one is answered.** A
document is one exactly if it is a file, in one of two languages, and the last three segments of its
path are the two directories and a name with one of the two extensions. A check of one begins a run
or, with checking off, settles it in the same turn; and what is opened is checked, whatever was
before. -/
theorem workflow_files_are_checked :
    (∀ url language, Workflow.qualifies url language = true ↔
      url.scheme = "file" ∧ (language = "github-actions-workflow" ∨ language = "yaml") ∧
      ∃ p, url.toPath? = some p ∧ ∃ before name,
        p.segments =
          before ++ [Text.Utf8.ofString ".github", Text.Utf8.ofString "workflows", name] ∧
        (Text.Utf8.ofString ".yml" <:+ name ∨ Text.Utf8.ofString ".yaml" <:+ name)) ∧
    (∀ c d, d.isWorkflow = true →
      Coordinator.Answers c.settings d.url d (Coordinator.openDocument d c)) ∧
    ∀ start c h, Life start c h → c.stopped = false → c.Attends start.settings h := by
  refine ⟨fun url language => ?_, fun c d hq => Coordinator.answers_openDocument hq c,
    fun start c h hl hrun => ⟨?_, ?_, ?_⟩⟩
  · rw [Workflow.qualifies_iff, Workflow.languages, List.mem_pair]
    rfl
  · exact fun u d => hl.exists_path hrun
  · exact fun u d => hl.answers_check hrun
  · exact fun u d m => hl.answers_handle hrun

/-- A name that is an extension only will do. A file that is saved is checked, with checking on or
off. -/
theorem workflow_files_are_checked_of_save :
    let bare := { Launch.workflowUrl with
      tail := .segments ["repo", ".github", "workflows", ".yml"] }
    let off : Settings := { enabled := false }
    let save : Message := .command (.saved Launch.workflowUrl none)
    let d : Document := ⟨Launch.workflowUrl, "yaml", 1, "on: push\n"⟩
    let x := Launch.workflow.after []
    let y := Launch.workflow.after [.command (.configured off)]
    Workflow.qualifies bare "yaml" = true ∧
      Coordinator.Answers {} Launch.workflowUrl d (x.1.handle save) ∧
      Coordinator.Answers off Launch.workflowUrl d (y.1.handle save) := by
  intro bare off save d x y
  have hx : Life Launch.workflow x.1 x.2 := Life.after Launch.workflow _ (by decide +kernel)
  have hy : Life Launch.workflow y.1 y.2 := Life.after Launch.workflow _ (by decide +kernel)
  obtain ⟨hqualifies, -, hattends⟩ := workflow_files_are_checked
  refine ⟨(hqualifies bare "yaml").mpr ⟨rfl, .inr rfl, ?_⟩, ?_, ?_⟩
  · exact ⟨.ofString "/repo/.github/workflows/.yml", by decide +kernel,
      [[], Text.Utf8.ofString "repo"], Text.Utf8.ofString ".yml", by decide +kernel,
      .inl List.suffix_rfl⟩
  · have hon : History.settings Launch.workflow.settings (x.2 ++ [.heard save]) = {} := by
      decide +kernel
    have hsaved := (hattends _ _ _ hx (by decide +kernel)).prompted Launch.workflowUrl d save rfl id
      (by decide +kernel) (by decide +kernel)
    rwa [hon] at hsaved
  · have hoff : History.settings Launch.workflow.settings (y.2 ++ [.heard save]) = off := by
      decide +kernel
    have hsaved := (hattends _ _ _ hy (by decide +kernel)).prompted Launch.workflowUrl d save rfl id
      (by decide +kernel) (by decide +kernel)
    rwa [hoff] at hsaved

end WorkflowLint

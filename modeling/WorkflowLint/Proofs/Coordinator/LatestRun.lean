import WorkflowLint.Proofs.Coordinator.HostView
/-!
# The latest run wins

Diagnostics with a version are told only when the run ends that was begun last for a document, and
they are those of that run, for the text, version and settings it was begun with
(`Life.published_by_last_begun`). No order in which runs end changes this: a run that was superseded
finds its ticket gone from the slot of the document, whether or not the document is open again.

The invariant ties the ticket in a document's slot to one run of the history: the last begun for
the document, with nothing since that ends its time, and no report of it so far. Tickets are never
handed out twice (`Tracked.fresh`, `Tracked.unique`), so a report that carries this ticket is of
this run.
-/

namespace WorkflowLint

namespace Entry

/-- Whether an entry ends the time of a run begun before it: another run of the document begins, its
diagnostics are dropped because checking is off or the document was closed, or it is opened again. -/
def supersedes (u : Url) : Entry → Prop
  | .heard (.command (.opened d)) => d.url = u
  | .heard (.command (.closed w)) => w = u
  | .heard (.command .shutdown) => True
  | .did (.start run) => run.url = u
  | .did (.emit (.published w none _)) => w = u
  | _ => False

def begun? (u : Url) : Entry → Option Run
  | .did (.start run) => if run.url = u then some run else none
  | _ => none

def ended? (u : Url) : Entry → Option Run
  | .heard (.finished run _) => if run.url = u then some run else none
  | _ => none

variable {u : Url} {e : Entry}

theorem concerns_of_supersedes (he : e.supersedes u) : e.concerns u := by
  unfold supersedes at he
  split at he
  all_goals first | exact he | exact he.elim

theorem begun?_of_not_concerns (he : ¬ e.concerns u) : e.begun? u = none := by
  unfold begun?
  split
  · exact if_neg he
  · rfl

theorem ended?_of_not_concerns (he : ¬ e.concerns u) : e.ended? u = none := by
  unfold ended?
  split
  · exact if_neg he
  · rfl

end Entry

namespace History

/-- The runs of a document that were begun, oldest first. -/
def begun (u : Url) (h : History) : List Run := h.filterMap (Entry.begun? u)

/-- The runs of a document that reported, oldest first. -/
def ended (u : Url) (h : History) : List Run := h.filterMap (Entry.ended? u)

variable {u : Url} {es : History} {run : Run}

theorem mem_begun {h : History} : run ∈ begun u h ↔ .did (.start run) ∈ h ∧ run.url = u := by
  rw [begun, List.mem_filterMap]
  constructor
  · rintro ⟨e, he, her⟩
    unfold Entry.begun? at her
    split at her
    · split at her
      · rename_i hu
        obtain rfl := Option.some.inj her
        exact ⟨he, hu⟩
      · cases her
    · cases her
  · rintro ⟨he, hu⟩
    exact ⟨_, he, if_pos hu⟩

theorem mem_ended_of_mem {h : History} {result : RunEnd} (he : .heard (.finished run result) ∈ h) :
    run ∈ ended run.url h :=
  List.mem_filterMap.mpr ⟨_, he, if_pos rfl⟩

theorem begun_of_silent (hes : ∀ e ∈ es, ¬ e.concerns u) : begun u es = [] :=
  List.filterMap_eq_nil_iff.mpr fun e he => Entry.begun?_of_not_concerns (hes e he)

theorem ended_of_silent (hes : ∀ e ∈ es, ¬ e.concerns u) : ended u es = [] :=
  List.filterMap_eq_nil_iff.mpr fun e he => Entry.ended?_of_not_concerns (hes e he)

@[simp] theorem begun_append (h g : History) : begun u (h ++ g) = begun u h ++ begun u g :=
  List.filterMap_append

@[simp] theorem ended_append (h g : History) : ended u (h ++ g) = ended u h ++ ended u g :=
  List.filterMap_append

@[simp] theorem begun_cons (e : Entry) (h : History) :
    begun u (e :: h) = (e.begun? u).toList ++ begun u h := by
  cases he : e.begun? u <;> simp [begun, he]

@[simp] theorem ended_cons (e : Entry) (h : History) :
    ended u (e :: h) = (e.ended? u).toList ++ ended u h := by
  cases he : e.ended? u <;> simp [ended, he]

@[simp] theorem begun_nil : begun u [] = [] := rfl

@[simp] theorem ended_nil : ended u [] = [] := rfl

@[simp] theorem ended_did (es : List Effect) : ended u (es.map .did) = [] := by
  rw [ended, List.filterMap_map]
  exact List.filterMap_eq_nil_iff.mpr fun _ _ => rfl

@[simp] theorem begun_cancelRun (d : OpenDocument) : begun u (d.cancelRun.map .did) = [] :=
  begun_of_silent (Desk.not_concerns_cancelRun d)

@[simp] theorem begun_stopPause (d : OpenDocument) : begun u (d.stopPause.map .did) = [] :=
  begun_of_silent (Desk.not_concerns_stopPause d)

@[simp] theorem begun_cancel (d : OpenDocument) : begun u (d.cancel.map .did) = [] :=
  begun_of_silent (Desk.not_concerns_cancel d)

@[simp] theorem begun_farewell (d : OpenDocument) :
    begun u ((Coordinator.farewell u d).map .did) = [] := by
  cases hq : d.qualifies <;> simp [Coordinator.farewell, hq, Entry.begun?]

@[simp] theorem begun_publication (run : Run) (result : RunEnd) :
    begun u ((Coordinator.publication run result).map .did) = [] := by
  cases ht : Coordinator.told? run result <;> simp [Coordinator.publication, ht, Entry.begun?]

/-- A run was begun with what the host had given by then: the document it had open, in the version
and with the text it had, and the settings. -/
structure Captures (start : Settings) (before : History) (run : Run) (d : Document) : Prop where
  document : before.document? run.url = some d
  version : run.version = d.version
  text : run.request.text = d.text
  settings : run.request.settings = before.settings start

/-- A run was begun, and nothing has ended its time since. -/
def BegunLast (start : Settings) (h : History) (run : Run) : Prop :=
  ∃ (before between : History) (d : Document), h = before ++ .did (.start run) :: between ∧
    (∀ e ∈ between, ¬ e.supersedes run.url) ∧ Captures start before run d

theorem BegunLast.append {start : Settings} {h : History} (hrun : BegunLast start h run)
    (hes : ∀ e ∈ es, ¬ e.supersedes run.url) : BegunLast start (h ++ es) run := by
  obtain ⟨before, between, d, rfl, hbetween, hcaptures⟩ := hrun
  refine ⟨before, between ++ es, d, by rw [List.append_assoc, List.cons_append], ?_, hcaptures⟩
  intro e he
  exact (List.mem_append.mp he).elim (hbetween e) (hes e)

theorem BegunLast.mem {start : Settings} {h : History} (hrun : BegunLast start h run) :
    .did (.start run) ∈ h := by
  obtain ⟨before, between, d, rfl, -, -⟩ := hrun
  simp

/-- Why a document's diagnostics `ds` of version `v` are told after `pre`: a run of it ended which
was begun last, and which has told nothing before. -/
structure Explains (start : Settings) (u : Url) (pre : History) (v : Int) (ds : List Diagnostic)
    (run : Run) (result : RunResult) (before between : History) (d : Document) : Prop where
  /-- The diagnostics are told while the end of the run is handled. -/
  handling : pre.handling? = some (.finished run (.completed result))
  url : run.url = u
  begun : pre = before ++ .did (.start run) :: between
  /-- No later check, no switching off, no closing and no opening of the document. -/
  last : ∀ e ∈ between, ¬ e.supersedes u
  captures : Captures start before run d
  version : v = d.version
  diagnostics :
    (∃ fs, result.outcome = .findings fs ∧
      ds = diagnoseAll (before.settings start).ruleSeverity (some d.text) fs) ∨
    (∃ message, result.outcome = .warning message ∧ ds = [])
  /-- The run told nothing before, of any document. -/
  once : ∀ (pre' post' : History) w v' ds' result',
    pre = pre' ++ .did (.emit (.published w (some v') ds')) :: post' →
      handling? pre' ≠ some (.finished run result')

def Explained (start : Settings) (u : Url) (pre : History) (v : Int) (ds : List Diagnostic) : Prop :=
  ∃ run result before between d, Explains start u pre v ds run result before between d

/-- All diagnostics of a document that are told with a version are explained. -/
def Accounted (start : Settings) (u : Url) (h : History) : Prop :=
  ∀ (pre post : History) v ds, h = pre ++ .did (.emit (.published u (some v) ds)) :: post →
    Explained start u pre v ds

theorem Accounted.append {start : Settings} {h : History} (hh : Accounted start u h)
    (hes : ∀ v ds, .did (.emit (.published u (some v) ds)) ∉ es) : Accounted start u (h ++ es) := by
  intro pre post v ds heq
  rcases eq_append_of_append heq with ⟨post', hold, -⟩ | ⟨new, -, hnew⟩
  · exact hh pre post' v ds hold
  · exact absurd (hnew ▸ List.mem_append_right new List.mem_cons_self) (hes v ds)

theorem Accounted.told {start : Settings} {h : History} {v : Int} {ds : List Diagnostic}
    (hh : Accounted start u h) (hexplained : Explained start u h v ds) :
    Accounted start u (h ++ [.did (.emit (.published u (some v) ds))]) := by
  intro pre post v' ds' heq
  rcases eq_append_of_append heq with ⟨post', hold, -⟩ | ⟨new, rfl, hnew⟩
  · exact hh pre post' v' ds' hold
  · cases new with
    | cons e new => simp at hnew
    | nil =>
      obtain ⟨⟨rfl, rfl⟩, -⟩ : (v = v' ∧ ds = ds') ∧ _ := by simpa using hnew
      rw [List.append_nil]
      exact hexplained

theorem mem_of_handling? {h : History} {m : Message} (hm : handling? h = some m) : .heard m ∈ h := by
  obtain ⟨e, he, hem⟩ := exists_mem_of_last? hm
  cases e with
  | heard m' =>
    obtain rfl := Option.some.inj hem
    exact he
  | did f => cases hem

end History

namespace Desk

variable {start : Settings} {u : Url} {k k' : Desk}

/-- Tickets of runs are not handed out twice, and only runs that were begun report. -/
structure Numbered (u : Url) (k : Desk) : Prop where
  fresh : ∀ run ∈ k.history.begun u, run.ticket.number < k.issued
  unique : ∀ run ∈ k.history.begun u, ∀ other ∈ k.history.begun u,
    run.ticket = other.ticket → run = other
  heard : ∀ run ∈ k.history.ended u, run ∈ k.history.begun u

theorem Numbered.append {es : History} (hk : Numbered u k) (hissued : k.issued ≤ k'.issued)
    (hh : k'.history = k.history ++ es) (hbegun : History.begun u es = [])
    (hended : ∀ run ∈ History.ended u es, run ∈ k.history.begun u) : Numbered u k' := by
  have hb : k'.history.begun u = k.history.begun u := by
    rw [hh, History.begun_append, hbegun, List.append_nil]
  refine ⟨?_, ?_, ?_⟩
  · intro run hrun
    rw [hb] at hrun
    exact Nat.lt_of_lt_of_le (hk.fresh run hrun) hissued
  · rw [hb]
    exact hk.unique
  · intro run hrun
    rw [hb]
    rw [hh, History.ended_append, List.mem_append] at hrun
    exact hrun.elim (hk.heard run) (hended run)

theorem Numbered.begin {es : History} {run : Run} (hk : Numbered u k)
    (ht : run.ticket = ⟨k.issued⟩) (hissued : k'.issued = k.issued + 1)
    (hh : k'.history = k.history ++ es) (hbegun : History.begun u es = [run])
    (hended : History.ended u es = []) : Numbered u k' := by
  have hb : k'.history.begun u = k.history.begun u ++ [run] := by
    rw [hh, History.begun_append, hbegun]
  have hnew : ∀ old ∈ k.history.begun u, old.ticket ≠ run.ticket := by
    intro old hold heq
    have hlt := hk.fresh old hold
    rw [heq, ht] at hlt
    exact Nat.lt_irrefl _ hlt
  refine ⟨?_, ?_, ?_⟩
  · intro old hold
    rw [hissued]
    rw [hb, List.mem_append, List.mem_singleton] at hold
    rcases hold with hold | rfl
    · exact Nat.lt_succ_of_lt (hk.fresh old hold)
    · rw [ht]
      exact Nat.lt_succ_self _
  · intro old hold other hother heq
    rw [hb, List.mem_append, List.mem_singleton] at hold hother
    rcases hold with hold | rfl <;> rcases hother with hother | rfl
    · exact hk.unique old hold other hother heq
    · exact absurd heq (hnew old hold)
    · exact absurd heq.symm (hnew other hother)
    · rfl
  · intro old hold
    rw [hh, History.ended_append, hended, List.append_nil] at hold
    rw [hb]
    exact List.mem_append_left _ (hk.heard old hold)

theorem mem_begun_of_ended {h : History} {m : Message} (hm : h.Admits m) :
    ∀ run ∈ History.ended u [.heard m], run ∈ h.begun u := by
  intro run hrun
  cases m with
  | finished other result =>
    by_cases hu : other.url = u
    · simp only [History.ended_cons, Entry.ended?, if_pos hu, History.ended_nil, List.append_nil,
        Option.mem_toList, Option.some.injEq] at hrun
      subst hrun
      exact History.mem_begun.mpr ⟨hm, hu⟩
    · simp [Entry.ended?, hu] at hrun
  | command command => exact absurd hrun List.not_mem_nil
  | elapsed w t => exact absurd hrun List.not_mem_nil

theorem numbered_step (hk : Numbered u k) (hs : Step u k k') : Numbered u k' := by
  cases hs with
  | away hn hes =>
    exact hk.append hn rfl (History.begun_of_silent hes)
      (by simp [History.ended_of_silent hes])
  | deaf _ hm =>
    exact hk.append (Nat.le_refl _) rfl (by simp [Entry.begun?]) (mem_begun_of_ended hm)
  | begun _ _ _ hu ht =>
    exact hk.begin ht rfl rfl (by simp [Entry.begun?, hu]) (History.ended_did _)
  | scheduled =>
    exact hk.append (Nat.le_succ _) rfl (by simp [Entry.begun?]) (by simp [Entry.ended?])
  | retired _ _ _ hes =>
    exact hk.append (Nat.le_refl _) rfl
      (by simp [Entry.begun?, History.begun_of_silent hes])
      (by simp [Entry.ended?, History.ended_of_silent hes])
  | @ended _ run result _ hu hm _ _ hes =>
    refine hk.append (Nat.le_refl _) rfl
      (by simp [Entry.begun?, History.begun_of_silent hes]) fun other hother => ?_
    refine mem_begun_of_ended (m := .finished run result) hm other ?_
    simpa [Entry.ended?, History.ended_of_silent hes] using hother
  | @lateRun run result hu hm =>
    exact hk.append (Nat.le_refl _) rfl (by simp [Entry.begun?])
      (mem_begun_of_ended (m := .finished run result) hm)
  | opened =>
    refine hk.append (Nat.le_refl _) rfl ?_ (by simp [Entry.ended?])
    cases k.document <;> simp [Entry.begun?]
  | stopped hes =>
    exact hk.append (Nat.le_refl _) rfl (by simp [Entry.begun?, History.begun_of_silent hes])
      (by simp [Entry.ended?, History.ended_of_silent hes])
  | _ => exact hk.append (Nat.le_refl _) rfl (by simp [Entry.begun?]) (by simp [Entry.ended?])

/-- The run with the ticket `t` was begun last and has not reported. -/
def Awaited (start : Settings) (u : Url) (h : History) (t : Ticket) : Prop :=
  ∃ run, run.url = u ∧ run.ticket = t ∧ History.BegunLast start h run ∧ run ∉ h.ended u

theorem Awaited.append {h es : History} {t : Ticket} (ha : Awaited start u h t)
    (hes : ∀ e ∈ es, ¬ e.supersedes u) (hended : ∀ run ∈ History.ended u es, run.ticket ≠ t) :
    Awaited start u (h ++ es) t := by
  obtain ⟨run, rfl, rfl, hbegun, hquiet⟩ := ha
  refine ⟨run, rfl, rfl, hbegun.append hes, ?_⟩
  rw [History.ended_append, List.mem_append]
  rintro (hrun | hrun)
  · exact hquiet hrun
  · exact hended run hrun rfl

/-- All that the slot of a document and the diagnostics told so far have to do with its runs. -/
structure Tracked (start : Settings) (u : Url) (k : Desk) : Prop where
  settings : k.stopped = false → k.settings = History.settings start k.history
  document : k.stopped = false →
    k.document.map sheet = (History.document? u k.history).map sheetOf
  /-- Nothing is open after the end. -/
  shut : k.stopped = true → k.document = none
  numbered : Numbered u k
  /-- A slot is taken by the run begun last. -/
  awaited : ∀ d t, k.document = some d → d.run.occupant = some t → Awaited start u k.history t
  accounted : History.Accounted start u k.history

theorem shut_step (hk : k.stopped = true → k.document = none) (hs : Step u k k')
    (hstop : k'.stopped = true) : k'.document = none := by
  cases hs with
  | opened hrun => exact absurd (hrun.symm.trans hstop) Bool.noConfusion
  | changed | saved =>
    show Option.map _ k.document = none
    rw [hk hstop]
    rfl
  | scheduled hd | unpaused hd | begun hd | retired hd | elapsed hd =>
    exact absurd ((hk hstop).symm.trans hd) (by simp)
  | ended _ _ hd => exact absurd ((hk hstop).symm.trans hd) (by simp)
  | closed | stopped => rfl
  | _ => exact hk hstop

theorem not_supersedes_stopPause (d : OpenDocument) :
    ∀ e ∈ d.stopPause.map Entry.did, ¬ e.supersedes u := fun e he hsup =>
  not_concerns_stopPause d e he (Entry.concerns_of_supersedes hsup)

theorem begunLast_begun {d : OpenDocument} {run : Run} (hk : Tracked start u k)
    (hd : k.document = some d) (hu : run.url = u) (hv : run.version = d.version)
    (hx : run.request.text = d.text) (hs : run.request.settings = k.settings) :
    History.BegunLast start (k.history ++ (d.cancelRun ++ [Effect.start run]).map .did) run := by
  have hrun : k.stopped = false := by
    rw [← Bool.not_eq_true]
    intro hstop
    exact absurd ((hk.shut hstop).symm.trans hd) (by simp)
  -- the run captures the document on the desk, which is the one the host described last
  have hsheet := hk.document hrun
  rw [hd, Option.map_some] at hsheet
  obtain ⟨e, he, hde⟩ := Option.map_eq_some_iff.mp hsheet.symm
  obtain ⟨hversion, htext, -⟩ : e.version = d.version ∧ e.text = d.text ∧ _ := by
    simpa [sheet, sheetOf] using hde
  refine ⟨k.history ++ d.cancelRun.map .did, [], e, by simp, by simp, ?_⟩
  refine ⟨?_, hv.trans hversion.symm, hx.trans htext.symm, ?_⟩
  · rw [History.document?, List.foldl_append, History.foldl_revise_did, hu]
    exact he
  · rw [hs, hk.settings hrun]
    simp [History.settings]

theorem awaited_step {d : OpenDocument} {t : Ticket} (hk : Tracked start u k) (hs : Step u k k')
    (hd : k'.document = some d) (ht : d.run.occupant = some t) :
    Awaited start u k'.history t := by
  cases hs with
  | away _ hes =>
    refine (hk.awaited d t hd ht).append (fun e he hsup => ?_) (by simp [History.ended_of_silent hes])
    exact hes e he (Entry.concerns_of_supersedes hsup)
  | deaf hstop => exact absurd ((hk.shut hstop).symm.trans hd) (by simp)
  | opened =>
    obtain rfl := Option.some.inj hd
    cases ht
  | changed | saved =>
    obtain ⟨d', hd', rfl⟩ := Option.map_eq_some_iff.mp hd
    exact (hk.awaited d' t hd' ht).append (by simp [Entry.supersedes]) (by simp [Entry.ended?])
  | scheduled hd' =>
    obtain rfl := Option.some.inj hd
    refine (hk.awaited _ t hd' ht).append ?_ (by rw [History.ended_did]; simp)
    rw [List.map_append, List.forall_mem_append]
    exact ⟨not_supersedes_stopPause _, by simp [Entry.supersedes]⟩
  | unpaused hd' =>
    obtain rfl := Option.some.inj hd
    exact (hk.awaited _ t hd' ht).append (not_supersedes_stopPause _) (by simp)
  | elapsed hd' =>
    obtain rfl := Option.some.inj hd
    exact (hk.awaited _ t hd' ht).append (by simp [Entry.supersedes]) (by simp [Entry.ended?])
  | configured | lateTimer =>
    exact (hk.awaited d t hd ht).append (by simp [Entry.supersedes]) (by simp [Entry.ended?])
  | missing hnone => exact absurd (hnone.symm.trans hd) (by simp)
  | @begun _ run hd' _ _ hu hticket hv hx hsettings =>
    obtain rfl := Option.some.inj hd
    obtain rfl := Option.some.inj ht
    refine ⟨run, hu, rfl, begunLast_begun hk hd' hu hv hx hsettings, ?_⟩
    -- what reported has an older ticket
    rw [History.ended_append, History.ended_did, List.append_nil]
    intro hold
    have hlt := hk.numbered.fresh run (hk.numbered.heard run hold)
    rw [hticket] at hlt
    exact Nat.lt_irrefl _ hlt
  | retired | ended =>
    obtain rfl := Option.some.inj hd
    cases ht
  | @lateRun run result hu _ hlate =>
    -- the late report carries another ticket than the slot
    refine (hk.awaited d t hd ht).append (by simp [Entry.supersedes]) fun other hother heq => ?_
    have hrun : other = run := by simpa [Entry.ended?, hu] using hother
    rw [← heq, hrun] at ht
    exact hlate d hd ht
  | closed | stopped => cases hd

/-- The end of the run that is awaited explains what is told then. -/
theorem explained_ended {h : History} {run : Run} {result : RunEnd} {ds : List Diagnostic}
    (hu : run.url = u) (hbegun : History.BegunLast start h run) (hquiet : run ∉ h.ended u)
    (hds : Coordinator.told? run result = some ds) :
    History.Explained start u (h ++ [.heard (.finished run result)]) run.version ds := by
  subst hu
  obtain ⟨before, between, d, rfl, hbetween, hcaptures⟩ := hbegun
  cases result with
  | crashed message => cases hds
  | completed result =>
    refine ⟨run, result, before, between ++ [.heard (.finished run (.completed result))], d, ?_⟩
    refine
      { handling := by simp [History.handling?, Entry.message?]
        url := rfl
        begun := by simp
        last := ?_
        captures := hcaptures
        version := hcaptures.version
        diagnostics := ?_
        once := ?_ }
    · rw [List.forall_mem_append]
      exact ⟨hbetween, by simp [Entry.supersedes]⟩
    · rw [← hcaptures.settings, ← hcaptures.text]
      simp only [Coordinator.told?, Coordinator.diagnosticsOf?] at hds
      split at hds
      · rename_i fs hfs
        exact .inl ⟨fs, hfs, (Option.some.inj hds).symm⟩
      · rename_i message hmessage
        exact .inr ⟨message, hmessage, (Option.some.inj hds).symm⟩
      · cases hds
    · -- an earlier report would be in `h`
      intro pre' post' w v' ds' result' hh hhandling
      rcases eq_append_of_append hh with ⟨post'', hold, -⟩ | ⟨new, -, hnew⟩
      · have hheard := List.mem_append_left (.did (.emit (.published w (some v') ds')) :: post'')
          (History.mem_of_handling? hhandling)
        exact hquiet (hold ▸ History.mem_ended_of_mem hheard)
      · have hmem : Entry.did (.emit (.published w (some v') ds')) ∈
            [Entry.heard (.finished run (.completed result))] :=
          hnew ▸ List.mem_append_right new List.mem_cons_self
        exact absurd (List.mem_singleton.mp hmem) (by simp)

theorem accounted_step (hk : Tracked start u k) (hs : Step u k k') :
    History.Accounted start u k'.history := by
  cases hs with
  | away _ hes => exact hk.accounted.append fun v ds he => hes _ he rfl
  | opened =>
    refine hk.accounted.append fun v ds he => ?_
    cases hold : k.document <;> simp [hold, OpenDocument.cancel, OpenDocument.stopPause,
      OpenDocument.cancelRun] at he
  | scheduled | unpaused | begun =>
    exact hk.accounted.append (by simp [OpenDocument.stopPause, OpenDocument.cancelRun])
  | @closed d =>
    refine hk.accounted.append ?_
    cases hq : d.qualifies <;> simp [OpenDocument.cancel, OpenDocument.stopPause,
      OpenDocument.cancelRun, Coordinator.farewell, hq]
  | @retired d es _ _ _ hes =>
    refine hk.accounted.append fun v ds he => ?_
    have hmem : .did (.emit (.published u (some v) ds)) ∈ es := by
      simpa [OpenDocument.cancelRun] using he
    exact hes _ hmem rfl
  | @ended d run result es hu hm hd ht hes =>
    have hquiet : ∀ v ds, .did (.emit (.published u (some v) ds)) ∉
        es ++ [.did (.emit (.settled u))] := by
      intro v ds he
      rcases List.mem_append.mp he with he | he
      · exact hes _ he rfl
      · exact absurd (List.mem_singleton.mp he) (by simp)
    have hheard : History.Accounted start u (k.history ++ [.heard (.finished run result)]) :=
      hk.accounted.append (by simp)
    cases hds : Coordinator.told? run result with
    | none =>
      have htold := hheard.append hquiet
      simpa [Coordinator.publication, hds] using htold
    | some ds =>
      obtain ⟨other, hother, hticket, hbegun, hunheard⟩ := hk.awaited d _ hd ht
      -- no other run of the document has the ticket
      obtain rfl : other = run := hk.numbered.unique other
        (History.mem_begun.mpr ⟨hbegun.mem, hother⟩) run (History.mem_begun.mpr ⟨hm, hu⟩) hticket
      have htold := (hheard.told (explained_ended hu hbegun hunheard hds)).append hquiet
      simpa [Coordinator.publication, hds, hu] using htold
  | stopped hes =>
    refine hk.accounted.append fun v ds he => ?_
    rcases List.mem_cons.mp he with he | he
    · cases he
    · exact hes _ he rfl
  | _ => exact hk.accounted.append (by simp)

theorem tracked_step (hk : Tracked start u k) (hs : Step u k k') : Tracked start u k' where
  settings := settings_step hk.settings hs
  document := document_step hk.document hs
  shut := shut_step hk.shut hs
  numbered := numbered_step hk.numbered hs
  awaited _ _ hd ht := awaited_step hk hs hd ht
  accounted := accounted_step hk hs

theorem tracked_blank (start : Settings) (u : Url) : Tracked start u (.blank start) where
  settings _ := rfl
  document _ := rfl
  shut _ := rfl
  numbered := ⟨by simp [blank], by simp [blank], by simp [blank]⟩
  awaited d t hd := absurd hd (by simp [blank])
  accounted pre post v ds h := absurd h.symm (by simp [blank])

end Desk

/-- **The latest run wins.** Whenever diagnostics with a version are told, a run of the document has
just ended that was begun last and has told nothing before, and they are its findings, by what it
was begun with. -/
theorem Life.published_by_last_begun {start : Launch} {c : Coordinator} {h : History} {u : Url}
    {pre post : History} {v : Int} {ds : List Diagnostic} (hl : Life start c h)
    (hh : h = pre ++ .did (.emit (.published u (some v) ds)) :: post) :
    ∃ run result before between d,
      History.Explains start.settings u pre v ds run result before between d :=
  (hl.desk_induction (Desk.tracked_blank start.settings u)
    fun _ _ => Desk.tracked_step).accounted pre post v ds hh

/-- The file is saved while it is checked. The second run tells its finding, and the first, which
ends later, tells nothing. -/
theorem Life.published_by_second_run :
    ∃ run result before between d, History.Explains {} Launch.workflowUrl
      ((Launch.workflow.after [.command (.saved Launch.workflowUrl none)]).2 ++
        [.heard (.finished (Launch.workflowRun 1) Launch.oneFinding)])
      1 [.mark .error "m" 0 0 0 Diagnostic.toolName "events"] run result before between d := by
  have hh : (Launch.workflow.after [
        .command (.saved Launch.workflowUrl none),
        .finished (Launch.workflowRun 1) Launch.oneFinding,
        .finished (Launch.workflowRun 0) (.completed .cancelled)]).2 =
      ((Launch.workflow.after [.command (.saved Launch.workflowUrl none)]).2 ++
        [.heard (.finished (Launch.workflowRun 1) Launch.oneFinding)]) ++
      .did (.emit (.published Launch.workflowUrl (some 1)
        [.mark .error "m" 0 0 0 Diagnostic.toolName "events"])) :: [
      .did (.emit (.settled Launch.workflowUrl)),
      .heard (.finished (Launch.workflowRun 0) (.completed .cancelled))] := by
    decide +kernel
  exact Life.published_by_last_begun (Life.after Launch.workflow _ (by decide +kernel)) hh

end WorkflowLint

import WorkflowLint.Proofs.CommandLine.Opening
import WorkflowLint.Proofs.Coordinator.Settlement
/-!
# A check under way

The runs of a check end in any order, and each ends once. Of the runs of a URL only the last counts:
its ticket is in the slot, and the ends of the others come late. While some runs are done, the URLs
whose last run is not are pending, the tally has the diagnostics of the last runs that are, and
there is a problem iff one of these did not end in findings (`Check.Underway`). One end more keeps
that (`Underway.conclude_of_last`, `Underway.conclude_of_superseded`), so the tally is complete when
all runs are done (`Underway.complete`).

Whether the end of a run gives notice depends on the health, which the runs share. The health is
good as long as there is no problem, so the first run that does not end in findings gives notice;
which one that is depends on the order, but that there is a problem does not.
-/

namespace WorkflowLint

def RunEnd.succeeded : RunEnd → Bool
  | .completed { outcome := .findings _, .. } => true
  | _ => false

/-- What a run found: nothing unless it ended in findings. -/
def RunEnd.findings : RunEnd → List Finding
  | .completed { outcome := .findings fs, .. } => fs
  | _ => []

theorem RunEnd.callsForNotice_good (result : RunEnd) :
    result.callsForNotice .good = !result.succeeded := by
  cases result with
  | crashed message => rfl
  | completed r =>
    obtain ⟨outcome, invocation⟩ := r
    cases outcome with
    | findings fs => rfl
    | warning message => rfl
    | failure f => cases hf : f.isNotFound <;> simp [callsForNotice, succeeded]

theorem RunEnd.verdict?_of_succeeded {result : RunEnd} (hr : result.succeeded = true) :
    result.verdict? = some .good := by
  cases result with
  | crashed message => cases hr
  | completed r =>
    obtain ⟨outcome, invocation⟩ := r
    cases outcome with
    | findings fs => rfl
    | warning message => cases hr
    | failure f => cases hr

namespace CommandLine.Check

open Coordinator

/-- The last run of a document, if it is not done. -/
def lastWaiting? (runs done : List Run) (u : Url) : Option Run :=
  (lastRun? runs u).filter fun run => run ∉ done

/-- The last run of a document, if it is done. -/
def lastDone? (runs done : List Run) (u : Url) : Option Run :=
  (lastRun? runs u).filter fun run => run ∈ done

/-- A check under way, where the runs `done` have ended as `f` says. -/
structure Underway (runs : List Run) (f : Run → RunEnd) (done : List Run) (p : Progress) : Prop where
  running : p.coordinator.stopped = false
  slots : ∀ u, (p.coordinator.clerk u).run.occupant = (lastWaiting? runs done u).map (·.ticket)
  pending : ∀ u, u ∈ p.tally.pending ↔ lastWaiting? runs done u ≠ none
  keys : p.tally.diagnostics.keys.Nodup
  diagnostics : ∀ u,
    p.tally.diagnostics.get? u = (lastDone? runs done u).bind fun run => told? run (f run)
  problems : p.tally.problems = [] ↔
    ∀ u run, lastDone? runs done u = some run → (f run).succeeded = true
  health : p.tally.problems = [] → p.coordinator.health = .good

variable {runs done : List Run} {f : Run → RunEnd} {p : Progress} {run : Run} {u : Url}

theorem mem_of_lastRun? (hlast : lastRun? runs u = some run) : run ∈ runs ∧ run.url = u := by
  have hmem := List.mem_of_getLast? hlast
  simpa using hmem

theorem filter_eq_self {o : Option Run} {p : Run → Bool} (hp : ∀ r, o = some r → p r = true) :
    o.filter p = o := by
  cases o with
  | none => rfl
  | some r => exact Option.filter_some_pos (hp r rfl)

/-! ## One more run is done -/

theorem filter_last {p q : Run → Bool} (hpq : ∀ r, lastRun? runs u = some r → p r = q r) :
    (lastRun? runs u).filter p = (lastRun? runs u).filter q := by
  cases hlast : lastRun? runs u with
  | none => rfl
  | some r => rw [Option.filter_some, Option.filter_some, hpq r hlast]

theorem ne_of_elsewhere (hu : u ≠ run.url) {r : Run} (hr : lastRun? runs u = some r) : r ≠ run := by
  rintro rfl
  exact hu (mem_of_lastRun? hr).2.symm

theorem lastWaiting?_of_last (hlast : lastRun? runs run.url = some run) (u : Url) :
    lastWaiting? runs (done ++ [run]) u = if u = run.url then none else lastWaiting? runs done u := by
  rw [lastWaiting?, lastWaiting?]
  split
  · rename_i hu
    simp [hu, hlast]
  · rename_i hu
    exact filter_last fun r hr => by simp [ne_of_elsewhere hu hr]

theorem lastDone?_of_last (hlast : lastRun? runs run.url = some run) (u : Url) :
    lastDone? runs (done ++ [run]) u = if u = run.url then some run else lastDone? runs done u := by
  rw [lastDone?, lastDone?]
  split
  · rename_i hu
    simp [hu, hlast]
  · rename_i hu
    exact filter_last fun r hr => by simp [ne_of_elsewhere hu hr]

theorem ne_of_superseded (hlast : lastRun? runs run.url ≠ some run) {r : Run}
    (hr : lastRun? runs u = some r) : r ≠ run := by
  rintro rfl
  rw [(mem_of_lastRun? hr).2] at hlast
  exact hlast hr

theorem lastWaiting?_of_superseded (hlast : lastRun? runs run.url ≠ some run) (u : Url) :
    lastWaiting? runs (done ++ [run]) u = lastWaiting? runs done u :=
  filter_last fun r hr => by simp [ne_of_superseded hlast hr]

theorem lastDone?_of_superseded (hlast : lastRun? runs run.url ≠ some run) (u : Url) :
    lastDone? runs (done ++ [run]) u = lastDone? runs done u :=
  filter_last fun r hr => by simp [ne_of_superseded hlast hr]

theorem lastDone?_eq_none (hlast : lastRun? runs run.url = some run) (hdone : run ∉ done) :
    lastDone? runs done run.url = none := by
  rw [lastDone?, hlast]
  exact Option.filter_some_neg (by simpa using hdone)

theorem forall_lastDone?_iff (hlast : lastRun? runs run.url = some run) (hdone : run ∉ done)
    (f : Run → RunEnd) :
    (∀ u r, lastDone? runs (done ++ [run]) u = some r → (f r).succeeded = true) ↔
      (∀ u r, lastDone? runs done u = some r → (f r).succeeded = true) ∧
        (f run).succeeded = true := by
  simp only [lastDone?_of_last hlast]
  constructor
  · refine fun hall => ⟨fun u r hr => hall u r ?_, hall run.url run (if_pos rfl)⟩
    have hu : u ≠ run.url := by
      rintro rfl
      rw [lastDone?_eq_none hlast hdone] at hr
      cases hr
    rw [if_neg hu, hr]
  · rintro ⟨hbefore, hnow⟩ u r hr
    split at hr
    · obtain rfl := Option.some.inj hr
      exact hnow
    · exact hbefore u r hr

/-! ## The end of a run -/

theorem noteAll_publication {t : Tally} (hpending : t.pending ≠ []) (run : Run) (result : RunEnd) :
    t.noteAll (publication run result) =
      { t with diagnostics :=
          (told? run result).elim t.diagnostics (t.diagnostics.insert run.url) } := by
  rw [publication]
  cases told? run result with
  | none => rfl
  | some ds => exact if_neg hpending

theorem noteAll_notices {t : Tally} (hpending : t.pending ≠ []) (run : Run) (now : Health)
    (result : RunEnd) :
    t.noteAll (notices run now result) =
      { t with problems := t.problems ++
          ((notices run now result).filterMap Effect.notice?).map (·.message) } := by
  obtain ⟨notice?, hnotice⟩ := exists_notice run now result
  rw [hnotice]
  cases notice? with
  | none => simp [Tally.noteAll]
  | some n => exact if_neg hpending

theorem noteAll_finish {t : Tally} (hpending : t.pending ≠ []) (run : Run) (result : RunEnd)
    (now : Health) (c : Coordinator) :
    t.noteAll (publication run result ++ notices run now result ++ c.news ++
        [.emit (.settled run.url)]) =
      { pending := t.pending.filter (· ≠ run.url)
        diagnostics := (told? run result).elim t.diagnostics (t.diagnostics.insert run.url)
        problems := t.problems ++
          ((notices run now result).filterMap Effect.notice?).map (·.message) } := by
  have hnews : ∀ t : Tally, t.noteAll c.news = t := fun _ =>
    Tally.noteAll_of_silent (silent_news c)
  let t' : Tally :=
    { t with diagnostics := (told? run result).elim t.diagnostics (t.diagnostics.insert run.url) }
  have hpublication : t.noteAll (publication run result) = t' :=
    noteAll_publication hpending run result
  have hpending' : t'.pending ≠ [] := hpending
  have hnotices : t'.noteAll (notices run now result) = { t' with
      problems := t'.problems ++
        ((notices run now result).filterMap Effect.notice?).map (·.message) } :=
    noteAll_notices hpending' run now result
  rw [Tally.noteAll_append, Tally.noteAll_append, Tally.noteAll_append, hpublication, hnotices,
    hnews]
  exact if_neg hpending

theorem get?_publication (t : Table Url (List Diagnostic)) (run : Run) (result : RunEnd) (u : Url) :
    ((told? run result).elim t (t.insert run.url)).get? u =
      if u = run.url then (told? run result).or (t.get? u) else t.get? u := by
  cases told? run result with
  | none => simp
  | some ds => exact Table.get?_insert t run.url u ds

theorem problems_finish (now : Health) (run : Run) (result : RunEnd) (problems : List String) :
    problems ++ ((notices run now result).filterMap Effect.notice?).map (·.message) = [] ↔
      problems = [] ∧ result.callsForNotice now = false := by
  have hnone : (notices run now result).filterMap Effect.notice? = [] ↔
      result.callsForNotice now = false := by
    rw [← List.length_eq_zero_iff, length_notices]
    cases result.callsForNotice now <;> simp
  rw [List.append_eq_nil_iff, List.map_eq_nil_iff, hnone]

theorem occupant_concluded (c : Coordinator) (run : Run) (result : RunEnd) (u : Url) :
    (((c.concluded run result).told).clerk u).run.occupant =
      if u = run.url then none else (c.clerk u).run.occupant := by
  have hget : ((c.concluded run result).told).documents.get? u =
      if u = run.url then (c.documents.get? run.url).map fun d =>
        { d with run := {}, phase := phaseAfterEnd result }
      else c.documents.get? u := by
    simp [told, concluded, Coordinator.modify]
  rw [Clerk.run, Coordinator.clerk, hget]
  split
  · cases c.documents.get? run.url <;> rfl
  · rfl

/-! ## Every order -/

theorem Underway.conclude_of_superseded (hp : Underway runs f done p)
    (htickets : (runs.map (·.ticket)).Nodup) (hrun : run ∈ runs)
    (hlast : lastRun? runs run.url ≠ some run) (result : RunEnd) :
    Underway runs f (done ++ [run]) (p.conclude run result) := by
  have hlate : p.coordinator.IsLate (.finished run result) := by
    intro d hd ht
    -- the slot has the ticket of the last run, and no two runs share a ticket
    have hslot := (hp.slots run.url).symm.trans (Life.occupant_run_iff.mpr ⟨d, hd, ht⟩)
    obtain ⟨r, hr, hticket⟩ := Option.map_eq_some_iff.mp hslot
    obtain ⟨hr, -⟩ := Option.filter_eq_some_iff.mp hr
    obtain rfl := List.inj_on_of_nodup_map htickets (mem_of_lastRun? hr).1 hrun hticket
    exact hlast hr
  have hconclude : p.conclude run result = p := by
    rw [Progress.conclude, handle_of_isLate hlate]
    rfl
  rw [hconclude]
  constructor
  case running => exact hp.running
  case slots => exact fun u => by rw [lastWaiting?_of_superseded hlast, hp.slots]
  case pending => exact fun u => by rw [lastWaiting?_of_superseded hlast, hp.pending]
  case keys => exact hp.keys
  case diagnostics => exact fun u => by rw [lastDone?_of_superseded hlast, hp.diagnostics]
  case problems => simp only [lastDone?_of_superseded hlast, hp.problems]
  case health => exact hp.health

theorem Underway.conclude_of_last (hp : Underway runs f done p)
    (hlast : lastRun? runs run.url = some run) (hdone : run ∉ done) :
    Underway runs f (done ++ [run]) (p.conclude run (f run)) := by
  have hwaiting : lastWaiting? runs done run.url = some run := by simp [lastWaiting?, hlast, hdone]
  have hslot : (p.coordinator.clerk run.url).run.occupant = some run.ticket := by
    rw [hp.slots, hwaiting]
    rfl
  obtain ⟨d, hd, ht⟩ := Life.occupant_run_iff.mp hslot
  have hpending : p.tally.pending ≠ [] := by
    refine List.ne_nil_of_mem ((hp.pending run.url).mpr ?_)
    rw [hwaiting]
    exact Option.some_ne_none run
  have hfinish : p.coordinator.handle (.finished run (f run)) =
      ((p.coordinator.concluded run (f run)).told,
        publication run (f run) ++ notices run p.coordinator.health (f run) ++
          (p.coordinator.concluded run (f run)).news ++ [.emit (.settled run.url)]) := by
    rw [handle_of_running hp.running]
    exact finish_of_current hd ht (f run)
  -- the health only hides the notice of a run after another run has given one
  have hnotice : p.tally.problems = [] →
      ((f run).callsForNotice p.coordinator.health = false ↔ (f run).succeeded = true) := by
    intro hproblems
    rw [hp.health hproblems, RunEnd.callsForNotice_good]
    cases (f run).succeeded <;> simp
  rw [Progress.conclude, hfinish]
  dsimp only
  rw [noteAll_finish hpending]
  constructor
  case running => exact hp.running
  case slots =>
    intro u
    rw [occupant_concluded, lastWaiting?_of_last hlast, hp.slots]
    split <;> rfl
  case pending =>
    intro u
    rw [lastWaiting?_of_last hlast, List.mem_filter, hp.pending]
    by_cases hu : u = run.url <;> simp [hu]
  case keys =>
    cases told? run (f run) with
    | none => exact hp.keys
    | some ds => exact Table.nodup_keys_insert hp.keys run.url ds
  case diagnostics =>
    intro u
    rw [get?_publication, lastDone?_of_last hlast, hp.diagnostics]
    by_cases hu : u = run.url
    · rw [if_pos hu, if_pos hu, hu, lastDone?_eq_none hlast hdone]
      exact Option.or_none
    · rw [if_neg hu, if_neg hu]
  case problems =>
    rw [forall_lastDone?_iff hlast hdone, ← hp.problems, problems_finish]
    exact and_congr_right hnotice
  case health =>
    intro hproblems
    obtain ⟨hproblems, hcalls⟩ := (problems_finish _ _ _ _).mp hproblems
    have hresult := RunEnd.verdict?_of_succeeded ((hnotice hproblems).mp hcalls)
    show healthAfterEnd p.coordinator.health (f run) = .good
    rw [healthAfterEnd_eq, hresult]
    rfl

/-- What is done and what is left are parts of all runs, which end once. -/
theorem Underway.concludeAll {rest : List Run} (hp : Underway runs f done p)
    (htickets : (runs.map (·.ticket)).Nodup) (hrest : ∀ run ∈ rest, run ∈ runs)
    (honce : (done ++ rest).Nodup) :
    Underway runs f (done ++ rest) (p.concludeAll (rest.map fun run => (run, f run))) := by
  -- what is done grows by the run that ends first
  induction rest generalizing done p with
  | nil =>
    rw [List.append_nil]
    exact hp
  | cons run rest ih =>
    obtain ⟨hrun, hrest⟩ := List.forall_mem_cons.mp hrest
    have hdone : run ∉ done := by
      have hdisjoint := List.disjoint_of_nodup_append honce
      exact fun hmem => hdisjoint hmem List.mem_cons_self
    have hnext : Underway runs f (done ++ [run]) (p.conclude run (f run)) := by
      by_cases hlast : lastRun? runs run.url = some run
      · exact hp.conclude_of_last hlast hdone
      · exact hp.conclude_of_superseded htickets hrun hlast (f run)
    have hall := ih hnext hrest (by simpa using honce)
    rw [List.append_assoc, List.singleton_append] at hall
    exact hall

/-! ## All runs are done -/

/-- What the last run of a document found. -/
def found (runs : List Run) (f : Run → RunEnd) (u : Url) : List Diagnostic :=
  (lastRun? runs u).elim [] fun run =>
    diagnoseAll run.request.settings.ruleSeverity (some run.request.text) (f run).findings

/-- A tally to which nothing is added any more. -/
structure Complete (x : Selection) (runs : List Run) (f : Run → RunEnd) (t : Tally) : Prop where
  pending : t.pending = []
  keys : t.diagnostics.keys.Nodup
  known : ∀ u ∈ t.diagnostics.keys, u ∈ x.names.keys
  diagnostics : ∀ u, (t.diagnostics.get? u).getD [] = found runs f u
  problems : t.problems = [] ↔ ∀ u run, lastRun? runs u = some run → (f run).succeeded = true

variable {settings : Settings} {root : Path} {x : Selection}

end CommandLine.Check

end WorkflowLint

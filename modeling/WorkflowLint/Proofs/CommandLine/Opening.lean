import WorkflowLint.Proofs.CommandLine.Files
import WorkflowLint.Proofs.Coordinator.Coverage
import WorkflowLint.Proofs.Coordinator.Notices
/-!
# How a check begins

A check opens its documents one after another. While checking is on, each of them begins a run in
place of the one before it of the same URL, so in the end the slot of a URL has the ticket of the
last run of that URL, and the tally has heard of nothing but the status (`Check.opened_launch`).
While checking is off, each of them is cleared and settled, and no run begins
(`Check.cleared_launch`).
-/

namespace WorkflowLint

/-- Whether a tally has nothing to take down of an effect. -/
def Effect.isSilent : Effect → Bool
  | .emit (.status _) => true
  | .emit _ => false
  | _ => true

/-- Whether an effect is one of clearing documents with these URLs. -/
def Effect.Clears (us : List Url) : Effect → Prop
  | .emit (.published u _ ds) => u ∈ us ∧ ds = []
  | .emit (.notice _) => False
  | .start _ => False
  | _ => True

namespace Tally

variable {t : Tally} {es : List Effect}

theorem noteAll_append (t : Tally) (es fs : List Effect) :
    t.noteAll (es ++ fs) = (t.noteAll es).noteAll fs :=
  List.foldl_append

theorem note_status (t : Tally) (i : Indicator) : t.note (.status i) = t := by
  unfold note
  split <;> rfl

theorem noteAll_of_silent (hes : ∀ e ∈ es, e.isSilent = true) : t.noteAll es = t := by
  induction es with
  | nil => rfl
  | cons e es ih =>
    obtain ⟨he, hes⟩ := List.forall_mem_cons.mp hes
    have hstep : t.noteAll (e :: es) = t.noteAll es := by
      cases e with
      | emit e =>
        cases e with
        | status i => exact congrArg (noteAll · es) (t.note_status i)
        | published u version ds => cases he
        | notice n => cases he
        | settled u => cases he
      | start run | cancelRun ticket | startTimer u ticket delay | stopTimer ticket => rfl
    exact hstep.trans (ih hes)

/-- A tally with no diagnostics and no problems. -/
structure IsBlank (us : List Url) (t : Tally) : Prop where
  keys : t.diagnostics.keys.Nodup
  diagnostics : ∀ u ds, t.diagnostics.get? u = some ds → u ∈ us ∧ ds = []
  problems : t.problems = []

theorem IsBlank.note {us : List Url} {e : Event} (ht : IsBlank us t)
    (he : (Effect.emit e).Clears us) : IsBlank us (t.note e) := by
  unfold Tally.note
  split
  · exact ht
  · cases e with
    | published w version ds =>
      refine ⟨Table.nodup_keys_insert ht.keys w ds, fun u ds' hget => ?_, ht.problems⟩
      rw [Table.get?_insert] at hget
      split at hget
      · rename_i hu
        cases hget
        exact ⟨hu ▸ he.1, he.2⟩
      · exact ht.diagnostics u ds' hget
    | notice n => exact he.elim
    | settled w => exact ⟨ht.keys, ht.diagnostics, ht.problems⟩
    | status i => exact ht

theorem IsBlank.noteAll {us : List Url} (ht : IsBlank us t) (hes : ∀ e ∈ es, e.Clears us) :
    IsBlank us (t.noteAll es) := by
  induction es generalizing t with
  | nil => exact ht
  | cons e es ih =>
    obtain ⟨he, hrest⟩ := List.forall_mem_cons.mp hes
    cases e with
    | emit e => exact ih (ht.note he) hrest
    | start run | cancelRun ticket | startTimer w ticket delay | stopTimer ticket => exact ih ht hrest

end Tally

namespace Coordinator

variable {c : Coordinator} {d : Document}

def runOf (d : Document) (path : Path) (c : Coordinator) : Run where
  url := d.url
  ticket := ⟨c.issued⟩
  version := d.version
  request := c.request d.url (placed d) path

theorem openDocument_of_enabled (hd : d.isWorkflow = true) (hon : c.settings.enabled = true) :
    ∃ path, openDocument d c = ((begin d.url (placed d) path (c.place d)).1.told,
      c.replaced d ++ .start ((c.place d).runOf d path) ::
        (begin d.url (placed d) path (c.place d)).1.news) := by
  have hplace : (c.place d).documents.get? d.url = some (placed d) := by simp [place]
  have hpath := Clerk.toPath?_of_qualifies hd
  rw [openDocument_eq]
  obtain ⟨-, hnone⟩ | ⟨_, -, -, hoff, -⟩ | ⟨_, path, hget, -, -, -, hcheck⟩ :=
    check_cases d.url (c.place d)
  · exact absurd (hnone _ hplace hd).2 hpath
  · exact absurd (hon.symm.trans hoff) Bool.noConfusion
  · rw [hplace] at hget
    obtain rfl := Option.some.inj hget
    exact ⟨path, by rw [hcheck]; rfl⟩

theorem openDocument_of_disabled (hd : d.isWorkflow = true) (hoff : c.settings.enabled = false) :
    openDocument d c = (((c.place d).retired d.url).told,
      c.replaced d ++ .emit (.published d.url none []) ::
        ((c.place d).retired d.url).news ++ [.emit (.settled d.url)]) := by
  have hplace : (c.place d).documents.get? d.url = some (placed d) := by simp [place]
  rw [openDocument_eq]
  obtain ⟨-, hnone⟩ | ⟨_, hget, -, -, hcheck⟩ | ⟨_, _, -, -, hon, -⟩ :=
    check_cases d.url (c.place d)
  · exact absurd ((hnone _ hplace hd).1.symm.trans hoff) Bool.noConfusion
  · rw [hplace] at hget
    obtain rfl := Option.some.inj hget
    rw [hcheck, retire_eq]
    simp [placed, OpenDocument.cancelRun]
  · exact absurd (hon.symm.trans hoff) Bool.noConfusion

theorem replaced_cases {e : Effect} (he : e ∈ c.replaced d) :
    ∃ t, e = .stopTimer t ∨ e = .cancelRun t := by
  rw [replaced] at he
  cases hold : c.documents.get? d.url with
  | none =>
    rw [hold] at he
    cases he
  | some old =>
    rw [hold] at he
    rcases List.mem_append.mp he with he | he
    · obtain ⟨t, -, rfl⟩ := List.mem_map.mp he
      exact ⟨t, .inl rfl⟩
    · obtain ⟨t, -, rfl⟩ := List.mem_map.mp he
      exact ⟨t, .inr rfl⟩

end Coordinator

namespace CommandLine.Check

open Coordinator

variable {us : List Url} {x : Coordinator × List Effect} {d : Document} {ds : List Document}

def lastRun? (runs : List Run) (u : Url) : Option Run :=
  (runs.filter fun run => run.url = u).getLast?

theorem lastRun?_append (runs : List Run) (run : Run) (u : Url) :
    lastRun? (runs ++ [run]) u = if u = run.url then some run else lastRun? runs u := by
  rw [lastRun?, List.filter_append, List.getLast?_append]
  split
  · rename_i hu
    simp [hu]
  · rename_i hu
    simp [Ne.symm hu, lastRun?]

theorem started_append (es fs : List Effect) : started (es ++ fs) = started es ++ started fs :=
  List.filterMap_append

theorem started_news (c : Coordinator) : started c.news = [] :=
  List.filterMap_eq_nil_iff.mpr fun e he => by rw [mem_news he]

theorem silent_news (c : Coordinator) : ∀ e ∈ c.news, e.isSilent = true := by
  intro e he
  rw [mem_news he]
  rfl

theorem clears_news (us : List Url) (c : Coordinator) : ∀ e ∈ c.news, e.Clears us := by
  intro e he
  rw [mem_news he]
  trivial

/-! ## While checking is on -/

/-- Documents with these URLs were opened while checking is on. -/
structure Opened (us : List Url) (x : Coordinator × List Effect) : Prop where
  running : x.1.stopped = false
  enabled : x.1.settings.enabled = true
  health : x.1.health = .good
  silent : ∀ e ∈ x.2, e.isSilent = true
  urls : (started x.2).map (·.url) = us
  tickets : (started x.2).map (·.ticket) = (List.range x.1.issued).map .mk
  slots : ∀ u, (x.1.clerk u).run.occupant = (lastRun? (started x.2) u).map (·.ticket)

theorem started_opened (c c' : Coordinator) (d : Document) (run : Run) :
    started (c.replaced d ++ .start run :: c'.news) = [run] := by
  have hreplaced : started (c.replaced d) = [] := by
    refine List.filterMap_eq_nil_iff.mpr fun e he => ?_
    obtain ⟨t, rfl | rfl⟩ := replaced_cases he <;> rfl
  have hstart : started (.start run :: c'.news) = run :: started c'.news := rfl
  rw [started_append, hreplaced, hstart, started_news, List.nil_append]

theorem occupant_opened (c : Coordinator) (d : Document) (path : Path) (u : Url) :
    (((begin d.url (placed d) path (c.place d)).1.told).clerk u).run.occupant =
      if u = d.url then some ⟨c.issued⟩ else (c.clerk u).run.occupant := by
  have hget : ((begin d.url (placed d) path (c.place d)).1.told).documents.get? u =
      if u = d.url then some { placed d with run := ⟨some ⟨c.issued⟩⟩, phase := .running }
      else c.documents.get? u := by
    by_cases hu : u = d.url <;> simp [begin, told, Coordinator.modify, place, hu]
  rw [Clerk.run, Coordinator.clerk, hget]
  split <;> rfl

theorem Opened.openDocument (hx : Opened us x) (hd : d.isWorkflow = true) :
    Opened (us ++ [d.url])
      ((x.1.openDocument d).1, x.2 ++ (x.1.openDocument d).2) := by
  obtain ⟨path, hopen⟩ := openDocument_of_enabled hd hx.enabled
  rw [hopen]
  constructor
  case running => exact hx.running
  case enabled => exact hx.enabled
  case health => exact hx.health
  case silent =>
    refine List.forall_mem_append.mpr ⟨hx.silent, List.forall_mem_append.mpr ⟨fun e he => ?_, ?_⟩⟩
    · obtain ⟨t, rfl | rfl⟩ := replaced_cases he <;> rfl
    · exact List.forall_mem_cons.mpr ⟨rfl, silent_news _⟩
  case urls =>
    rw [started_append, started_opened, List.map_append, hx.urls]
    rfl
  case tickets =>
    show List.map _ _ = (List.range (x.1.issued + 1)).map Ticket.mk
    rw [started_append, started_opened, List.map_append, hx.tickets, List.range_succ,
      List.map_append]
    rfl
  case slots =>
    intro u
    -- the new run has the slot, and it is the last one of its URL
    rw [started_append, started_opened, lastRun?_append, occupant_opened]
    show _ = Option.map _ (if u = d.url then _ else _)
    split
    · rfl
    · exact hx.slots u

theorem Opened.sequence (hx : Opened us x) (hds : ∀ d ∈ ds, d.isWorkflow = true) :
    Opened (us ++ ds.map (·.url)) ((Reaction.sequence (ds.map Coordinator.openDocument) x.1).1,
      x.2 ++ (Reaction.sequence (ds.map Coordinator.openDocument) x.1).2) := by
  induction ds generalizing us x with
  | nil => simpa using hx
  | cons d ds ih =>
    obtain ⟨hd, hds⟩ := List.forall_mem_cons.mp hds
    have hall := ih (hx.openDocument hd) hds
    rw [List.append_assoc, List.append_assoc, List.singleton_append] at hall
    exact hall

theorem Opened.refresh (hx : Opened us x) :
    Opened us ((x.1.refresh).1, x.2 ++ (x.1.refresh).2) := by
  have hstarted : started (x.2 ++ x.1.news) = started x.2 := by
    rw [started_append, started_news, List.append_nil]
  rw [refresh_eq]
  constructor
  case running => exact hx.running
  case enabled => exact hx.enabled
  case health => exact hx.health
  case silent => exact List.forall_mem_append.mpr ⟨hx.silent, silent_news x.1⟩
  case urls => rw [hstarted, hx.urls]
  case tickets =>
    rw [hstarted, hx.tickets]
    rfl
  case slots =>
    rw [hstarted]
    exact hx.slots

/-- Documents were opened while checking is off, all of which have URLs among `us`. -/
structure Cleared (us : List Url) (ds : List Document) (x : Coordinator × List Effect) : Prop where
  disabled : x.1.settings.enabled = false
  clears : ∀ e ∈ x.2, e.Clears us
  settled : ∀ d ∈ ds, .emit (.settled d.url) ∈ x.2

theorem Cleared.openDocument (hx : Cleared us ds x) (hd : d.isWorkflow = true) (hu : d.url ∈ us) :
    Cleared us (ds ++ [d]) ((x.1.openDocument d).1, x.2 ++ (x.1.openDocument d).2) := by
  have hreplaced : ∀ e ∈ x.1.replaced d, e.Clears us := by
    intro e he
    obtain ⟨t, rfl | rfl⟩ := replaced_cases he <;> trivial
  rw [openDocument_of_disabled hd hx.disabled]
  constructor
  case disabled => exact hx.disabled
  case clears =>
    refine List.forall_mem_append.mpr ⟨hx.clears, List.forall_mem_append.mpr ⟨?_, ?_⟩⟩
    · refine List.forall_mem_append.mpr ⟨hreplaced, ?_⟩
      exact List.forall_mem_cons.mpr ⟨⟨hu, rfl⟩, clears_news us _⟩
    · exact List.forall_mem_singleton.mpr trivial
  case settled =>
    refine List.forall_mem_append.mpr ⟨fun d' hd' => ?_, List.forall_mem_singleton.mpr ?_⟩
    · exact List.mem_append_left _ (hx.settled d' hd')
    · simp

theorem Cleared.sequence {before : List Document} (hx : Cleared us before x)
    (hds : ∀ d ∈ ds, d.isWorkflow = true ∧ d.url ∈ us) :
    Cleared us (before ++ ds) ((Reaction.sequence (ds.map Coordinator.openDocument) x.1).1,
      x.2 ++ (Reaction.sequence (ds.map Coordinator.openDocument) x.1).2) := by
  induction ds generalizing before x with
  | nil => simpa using hx
  | cons d ds ih =>
    obtain ⟨hd, hrest⟩ := List.forall_mem_cons.mp hds
    have hall := ih (hx.openDocument hd.1 hd.2) hrest
    rw [List.append_assoc, List.append_assoc, List.singleton_append] at hall
    exact hall

end CommandLine.Check

end WorkflowLint

import WorkflowLint.Coordinator.Handler
import WorkflowLint.Proofs.Splits
/-!
# Lives of a coordinator

A history lists what a coordinator heard and what it did about it, oldest first. `Life start c h`
says that a coordinator started with `start` can be in state `c` after the history `h`. The host
may give any command at any time. Timers and runs report in any order, late or never or more than
once, but a timer that was never started and a run that was never begun do not.

What the host can know is read off a history alone: the document it has open (`document?`), the
settings it gave last, the diagnostics and the status it was told last. The theorems about lives
compare the state of the coordinator with these.
-/

namespace WorkflowLint

def Document.isWorkflow (d : Document) : Bool := Workflow.qualifies d.url d.language

/-- One thing that happened: the coordinator heard a message, or did something about the last one
it heard. -/
inductive Entry where
  | heard (m : Message)
  | did (e : Effect)
  deriving DecidableEq, Inhabited

/-- What happened to a coordinator, oldest first. -/
abbrev History := List Entry

namespace Entry

def message? : Entry → Option Message
  | .heard m => some m
  | .did _ => none

def effect? : Entry → Option Effect
  | .heard _ => none
  | .did e => some e

def settings? : Entry → Option Settings
  | .heard (.command (.configured s)) => some s
  | _ => none

/-- The document, if any, that the host turned to. -/
def focus? : Entry → Option (Option Url)
  | .heard (.command (.focused url)) => some url
  | _ => none

/-- The document that the host opened under a URL. -/
def opening? (u : Url) : Entry → Option Document
  | .heard (.command (.opened d)) => if d.url = u then some d else none
  | _ => none

def status? : Entry → Option Indicator
  | .did (.emit (.status i)) => some i
  | _ => none

/-- The diagnostics of a document that the host was told. -/
def published? (u : Url) : Entry → Option (List Diagnostic)
  | .did (.emit (.published w _ ds)) => if w = u then some ds else none
  | _ => none

def timer? : Entry → Option (Url × Ticket)
  | .did (.startTimer u t _) => some (u, t)
  | _ => none

/-- What becomes of the document that the host has open under a URL. -/
def revise (u : Url) (o : Option Document) : Entry → Option Document
  | .heard (.command (.opened d)) => if d.url = u then some d else o
  | .heard (.command (.changed w version text)) =>
    if w = u then o.map fun d => { d with version, text } else o
  | .heard (.command (.saved w text)) =>
    if w = u then o.map fun d => { d with text := text.getD d.text } else o
  | .heard (.command (.closed w)) => if w = u then none else o
  | _ => o

/-- Whether an entry is about a document, or about all. Cancelled runs and stopped timers go by
their tickets and are about none. -/
def concerns (u : Url) : Entry → Prop
  | .heard (.command (.opened d)) => d.url = u
  | .heard (.command (.changed w _ _)) => w = u
  | .heard (.command (.saved w _)) => w = u
  | .heard (.command (.closed w)) => w = u
  | .heard (.command (.focused _)) => False
  | .heard (.command (.configured _)) => True
  | .heard (.command (.rooted _)) => False
  | .heard (.command .shutdown) => True
  | .heard (.elapsed w _) => w = u
  | .heard (.finished run _) => run.url = u
  | .did (.start run) => run.url = u
  | .did (.startTimer w _ _) => w = u
  | .did (.emit (.published w _ _)) => w = u
  | .did (.emit (.settled w)) => w = u
  | .did _ => False

end Entry

namespace History

/-- The last of what `f` finds in the entries. -/
def last? {α : Type} (f : Entry → Option α) (h : History) : Option α := h.reverse.findSome? f

@[simp] theorem last?_nil {α : Type} (f : Entry → Option α) : last? f [] = none := rfl

@[simp] theorem last?_append {α : Type} (f : Entry → Option α) (h g : History) :
    last? f (h ++ g) = (last? f g).or (last? f h) := by
  rw [last?, last?, last?, List.reverse_append, List.findSome?_append]

@[simp] theorem last?_cons {α : Type} (f : Entry → Option α) (e : Entry) (h : History) :
    last? f (e :: h) = (last? f h).or (f e) := by
  rw [← List.singleton_append, last?_append]
  cases hf : f e <;> simp [last?, hf]

theorem last?_of_none {α : Type} {f : Entry → Option α} {h : History} (hf : ∀ e ∈ h, f e = none) :
    last? f h = none := by
  rw [last?, List.findSome?_eq_none_iff]
  intro e he
  exact hf e (List.mem_reverse.mp he)

theorem last?_did {α : Type} {f : Entry → Option α} (hf : ∀ e, f (.did e) = none)
    (es : List Effect) : last? f (es.map .did) = none :=
  last?_of_none (List.forall_mem_map.mpr fun e _ => hf e)

theorem exists_mem_of_last? {α : Type} {f : Entry → Option α} {h : History} {a : α}
    (hf : last? f h = some a) : ∃ e ∈ h, f e = some a := by
  obtain ⟨e, he, hea⟩ := List.exists_of_findSome?_eq_some hf
  exact ⟨e, List.mem_reverse.mp he, hea⟩

/-- The message that is being handled at the end of a history. -/
def handling? (h : History) : Option Message := last? Entry.message? h

/-- The settings in force: the last the host gave. -/
def settings (start : Settings) (h : History) : Settings := (last? Entry.settings? h).getD start

def active? (h : History) : Option Url := (last? Entry.focus? h).join

def lastStatus? (h : History) : Option Indicator := last? Entry.status? h

/-- The diagnostics of a document the host was told last. -/
def lastPublished (u : Url) (h : History) : List Diagnostic :=
  (last? (Entry.published? u) h).getD []

/-- The document that the host has open under a URL, as it described it last. -/
def document? (u : Url) (h : History) : Option Document := h.foldl (Entry.revise u) none

/-- A document was opened in a way that is wrong, and nothing has set it right since. -/
def Since (wrong : History → Document → Prop) (right : Document → Entry → Prop) (h : History) :
    Prop :=
  ∃ (pre post : History) (d : Document), h = pre ++ .heard (.command (.opened d)) :: post ∧
    wrong pre d ∧ ∀ e ∈ post, ¬ right d e

section Since

variable {wrong : History → Document → Prop} {right : Document → Entry → Prop} {h es : History}

/-- What is wrong was wrong before, if nothing goes wrong in the new part. -/
theorem since_of_append (hs : Since wrong right (h ++ es))
    (hes : ∀ pre d, .heard (.command (.opened d)) ∈ es → ¬ wrong pre d) :
    ∃ (pre post : History) (d : Document), h = pre ++ .heard (.command (.opened d)) :: post ∧
      wrong pre d ∧ (∀ e ∈ post, ¬ right d e) ∧ ∀ e ∈ es, ¬ right d e := by
  obtain ⟨pre, post, d, hh, hwrong, hpost⟩ := hs
  rcases eq_append_of_append hh with ⟨post', rfl, rfl⟩ | ⟨new, -, rfl⟩
  · rw [List.forall_mem_append] at hpost
    exact ⟨pre, post', d, rfl, hwrong, hpost⟩
  · exact absurd hwrong (hes pre d (by simp))

theorem since_append_iff (hes : ∀ pre d, .heard (.command (.opened d)) ∈ es → ¬ wrong pre d)
    (hright : ∀ e ∈ es, ∀ d, ¬ right d e) :
    Since wrong right (h ++ es) ↔ Since wrong right h := by
  constructor
  · intro hs
    obtain ⟨pre, post, d, hh, hwrong, hpost, -⟩ := since_of_append hs hes
    exact ⟨pre, post, d, hh, hwrong, hpost⟩
  · rintro ⟨pre, post, d, rfl, hwrong, hpost⟩
    refine ⟨pre, post ++ es, d, by rw [List.append_assoc, List.cons_append], hwrong, ?_⟩
    rw [List.forall_mem_append]
    exact ⟨hpost, fun e he => hright e he d⟩

theorem since_opened_iff {d : Document}
    (hes : ∀ pre d', .heard (.command (.opened d')) ∈ es → ¬ wrong pre d')
    (hright : ∀ e ∈ .heard (.command (.opened d)) :: es, ∀ d', ¬ right d' e) :
    Since wrong right (h ++ .heard (.command (.opened d)) :: es) ↔
      wrong h d ∨ Since wrong right h := by
  constructor
  · rintro ⟨pre, post, d', hh, hwrong, hpost⟩
    rcases eq_append_of_append hh with ⟨post', rfl, rfl⟩ | ⟨new, rfl, hnew⟩
    · rw [List.forall_mem_append] at hpost
      exact .inr ⟨pre, post', d', rfl, hwrong, hpost.1⟩
    · cases new with
      | nil =>
        obtain ⟨rfl, -⟩ : d = d' ∧ _ := by simpa using hnew
        rw [List.append_nil] at hwrong
        exact .inl hwrong
      | cons e new =>
        obtain ⟨-, rfl⟩ := List.cons.inj hnew
        exact absurd hwrong (hes _ d' (by simp))
  · rintro (hwrong | ⟨pre, post, d', rfl, hwrong, hpost⟩)
    · exact ⟨h, es, d, rfl, hwrong, fun e he => hright e (List.mem_cons_of_mem _ he) d⟩
    · refine ⟨pre, post ++ .heard (.command (.opened d)) :: es, d', by simp, hwrong, ?_⟩
      rw [List.forall_mem_append]
      exact ⟨hpost, fun e he => hright e he d'⟩

end Since

/-- Whether a message can come after a history: a timer or a run reports only if it was started. -/
def Admits (h : History) : Message → Prop
  | .command _ => True
  | .elapsed u t => (u, t) ∈ h.filterMap Entry.timer?
  | .finished run _ => .did (.start run) ∈ h

instance (h : History) (m : Message) : Decidable (h.Admits m) :=
  match m with
  | .command _ => .isTrue trivial
  | .elapsed u t => inferInstanceAs (Decidable ((u, t) ∈ h.filterMap Entry.timer?))
  | .finished run _ => inferInstanceAs (Decidable (.did (.start run) ∈ h))

end History

/-- What a coordinator is started with. -/
structure Launch where
  settings : Settings
  workspace : Workspace := []
  /-- The documents that are open already. -/
  documents : List Document := []
  deriving Inhabited

namespace Coordinator

open Reaction

/-- What happens while documents are taken up one after another, and the status is told. -/
def takeUp : Coordinator → List Document → History
  | c, [] => (refresh c).2.map .did
  | c, d :: ds =>
    .heard (.command (.opened d)) :: (openDocument d c).2.map .did ++ takeUp (openDocument d c).1 ds

theorem filterMap_effect?_takeUp (c : Coordinator) (ds : List Document) :
    (c.takeUp ds).filterMap Entry.effect? =
      (andThen (sequence (ds.map openDocument)) refresh c).2 := by
  have hdid : ∀ es : List Effect, (es.map Entry.did).filterMap Entry.effect? = es := by
    intro es
    rw [List.filterMap_map]
    exact List.filterMap_some
  induction ds generalizing c with
  | nil => exact hdid _
  | cons d ds ih =>
    rw [takeUp, List.cons_append, List.filterMap_cons_none rfl, List.filterMap_append, hdid, ih,
      List.map_cons]
    exact (List.append_assoc _ _ _).symm

end Coordinator

namespace Launch

/-- The state of the coordinator right after its start. -/
def coordinator (start : Launch) : Coordinator :=
  (Coordinator.launch start.settings start.workspace start.documents).1

/-- What happened at the start: the documents were opened, and the status was told. -/
def history (start : Launch) : History :=
  Coordinator.takeUp { settings := start.settings, workspace := start.workspace } start.documents

theorem filterMap_effect?_history (start : Launch) :
    start.history.filterMap Entry.effect? =
      (Coordinator.launch start.settings start.workspace start.documents).2 :=
  Coordinator.filterMap_effect?_takeUp _ _

end Launch

/-- `Life start c h`: started with `start`, a coordinator can be in state `c` after `h`. -/
inductive Life (start : Launch) : Coordinator → History → Prop where
  | launched : Life start start.coordinator start.history
  | hears {c : Coordinator} {h : History} {m : Message} (hl : Life start c h) (hm : h.Admits m) :
      Life start (c.handle m).1 (h ++ .heard m :: (c.handle m).2.map .did)

/-! ## Lives by their messages -/

namespace Coordinator

def hear (x : Coordinator × History) (m : Message) : Coordinator × History :=
  ((x.1.handle m).1, x.2 ++ .heard m :: (x.1.handle m).2.map .did)

/-- Whether messages can come one after another. -/
def Admissible : Coordinator × History → List Message → Prop
  | _, [] => True
  | x, m :: ms => x.2.Admits m ∧ Admissible (hear x m) ms

instance decidableAdmissible : (x : Coordinator × History) → (ms : List Message) →
    Decidable (Admissible x ms)
  | _, [] => .isTrue trivial
  | x, m :: ms =>
    have := decidableAdmissible (hear x m) ms
    inferInstanceAs (Decidable (x.2.Admits m ∧ Admissible (hear x m) ms))

end Coordinator

def Launch.after (start : Launch) (ms : List Message) : Coordinator × History :=
  ms.foldl Coordinator.hear (start.coordinator, start.history)

/-- Messages that can come make up a life. -/
theorem Life.after (start : Launch) (ms : List Message)
    (hms : Coordinator.Admissible (start.coordinator, start.history) ms) :
    Life start (start.after ms).1 (start.after ms).2 := by
  have hrun : ∀ x : Coordinator × History, Life start x.1 x.2 → Coordinator.Admissible x ms →
      Life start (ms.foldl Coordinator.hear x).1 (ms.foldl Coordinator.hear x).2 := by
    clear hms
    induction ms with
    | nil => exact fun _ hx _ => hx
    | cons m ms ih => exact fun x hx hms => ih _ (.hears hx hms.1) hms.2
  exact hrun _ .launched hms

namespace Launch

def workflowUrl : Url :=
  { scheme := Url.fileScheme
    authority := some {}
    tail := .segments ["repo", ".github", "workflows", "ci.yml"] }

/-- A host with a workflow file open. -/
def workflow : Launch where
  settings := {}
  workspace := [.ofString "/repo"]
  documents := [{ url := workflowUrl, language := "yaml", version := 1, text := "on: push\n" }]

/-- The run of the workflow file with the ticket `n`. -/
def workflowRun (n : Nat) : Run where
  url := workflowUrl
  ticket := ⟨n⟩
  version := 1
  request :=
    { document := workflowUrl.text
      text := "on: push\n"
      relativePath := ".github/workflows/ci.yml"
      workingDir := .ofString "/repo"
      settings := {} }

/-- The workflow file as another kind of document. -/
def workflowNotes : Document :=
  { url := workflowUrl, language := "plaintext", version := 2, text := "notes\n" }

/-- The end of a run with one finding. -/
def oneFinding : RunEnd :=
  .completed { outcome := .findings [{ message := "m", kind := "events" }] }

end Launch

end WorkflowLint

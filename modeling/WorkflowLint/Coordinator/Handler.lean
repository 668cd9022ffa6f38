import WorkflowLint.Coordinator.State
import WorkflowLint.Lint.Diagnosis
import WorkflowLint.Workflow
/-!
# How the coordinator reacts

`Coordinator.handle` takes the state and what is heard to the state after it and the effects. A
document has one run at a time: beginning a run cancels the one before it, and a run that ends
counts only while its ticket is in the slot of the document open under its URL. Edits wait for a
pause, and every other cause of a run ends the pause.
-/

namespace WorkflowLint

/-- A reaction: from a state to the state after it, with effects. -/
abbrev Reaction := Coordinator → Coordinator × List Effect

namespace Reaction

def skip : Reaction := fun c => (c, [])

/-- One reaction after another. -/
def andThen (r s : Reaction) : Reaction := fun c =>
  let (c, es) := r c
  let (c, fs) := s c
  (c, es ++ fs)

def change (f : Coordinator → Coordinator) : Reaction := fun c => (f c, [])

def act (es : List Effect) : Reaction := fun c => (c, es)

def tell (e : Event) : Reaction := act [.emit e]

/-- Reactions one after another. -/
def sequence (rs : List Reaction) : Reaction := rs.foldr andThen skip

end Reaction

namespace OpenDocument

/-- Stop the timer of the pause, if there is one. -/
def stopPause (d : OpenDocument) : List Effect := d.pause.occupant.toList.map .stopTimer

def cancelRun (d : OpenDocument) : List Effect := d.run.occupant.toList.map .cancelRun

def cancel (d : OpenDocument) : List Effect := d.stopPause ++ d.cancelRun

end OpenDocument

namespace Coordinator

open Reaction

/-- What the status is about: the active document, if it is open. -/
def activeDocument (c : Coordinator) : Option (Phase × Nat) := do
  let url ← c.active
  let d ← c.documents.get? url
  return (d.phase, c.published.count url)

def indicator (c : Coordinator) : Indicator := .derive c.health c.activeDocument

/-- Change the document open under a URL. -/
def modify (url : Url) (f : OpenDocument → OpenDocument) (c : Coordinator) : Coordinator :=
  { c with documents := c.documents.modify url f }

/-- Tell the host the indicator, unless it knows. -/
def refresh : Reaction := fun c =>
  if c.shown = some c.indicator then (c, [])
  else ({ c with shown := some c.indicator }, [.emit (.status c.indicator)])

def clear (url : Url) : Reaction :=
  andThen (change fun c => { c with published := c.published.remove url })
    (tell (.published url none []))

/-! ## Runs -/

def request (c : Coordinator) (url : Url) (d : OpenDocument) (path : Path) : Request :=
  let place := c.workspace.locate path
  { document := url.text
    text := d.text
    relativePath := place.relativePath
    workingDir := place.workingDir
    settings := c.settings }

/-- Begin a run in place of the one before it. -/
def begin (url : Url) (d : OpenDocument) (path : Path) : Reaction := fun c =>
  let ticket : Ticket := ⟨c.issued⟩
  let run : Run := { url, ticket, version := d.version, request := c.request url d path }
  let c := { c with issued := c.issued + 1 }
  (c.modify url fun d => { d with run := ⟨some ticket⟩, phase := .running },
    d.cancelRun ++ [.start run])

/-- When the settings switch checking off: cancel the run and clear the document. -/
def retire (url : Url) (d : OpenDocument) : Reaction :=
  sequence [
    act d.cancelRun,
    change (modify url fun d => { d with run := {}, phase := .idle }),
    clear url,
    refresh,
    tell (.settled url)]

/-- Check a document, if it is open and a workflow file. -/
def check (url : Url) : Reaction := fun c =>
  match c.documents.get? url with
  | none => skip c
  | some d =>
    if !d.qualifies then skip c
    else if !c.settings.enabled then retire url d c
    else
      match url.toPath? with
      | none => skip c
      | some path => andThen (begin url d path) refresh c

/-- End the pause of a document without a run. -/
def endPause (url : Url) : Reaction := fun c =>
  match c.documents.get? url with
  | none => skip c
  | some d => andThen (act d.stopPause) (change (modify url fun d => { d with pause := {} })) c

/-! ## Commands -/

/-- Open a document, in place of one open under the same URL. -/
def openDocument (d : Document) : Reaction := fun c =>
  let qualifies := Workflow.qualifies d.url d.language
  let before := match c.documents.get? d.url with
    | some old => old.cancel
    | none => []
  andThen (act before)
    (andThen
      (change fun c =>
        { c with
          documents := c.documents.insert d.url { version := d.version, text := d.text, qualifies } })
      (if qualifies then check d.url else skip)) c

/-- Start the timer of a pause in place of the one before it. -/
def startPause (url : Url) (d : OpenDocument) : Reaction := fun c =>
  let ticket : Ticket := ⟨c.issued⟩
  let c := { c with issued := c.issued + 1 }
  (c.modify url fun d => { d with pause := ⟨some ticket⟩ },
    d.stopPause ++ [.startTimer url ticket c.settings.debounce])

def changeDocument (url : Url) (version : Int) (text : String) : Reaction := fun c =>
  match c.documents.get? url with
  | none => skip c
  | some d =>
    andThen (change (modify url fun d => { d with version, text }))
      (if d.qualifies && c.settings.lintsOnType then startPause url d else skip) c

def saveDocument (url : Url) (text : Option String) : Reaction :=
  sequence [
    change (modify url fun d => { d with text := text.getD d.text }),
    endPause url,
    check url]

def closeDocument (url : Url) : Reaction := fun c =>
  match c.documents.get? url with
  | none => skip c
  | some d =>
    sequence [
      act d.cancel,
      change fun c => { c with documents := c.documents.erase url },
      if d.qualifies then clear url else skip,
      refresh] c

/-- The URLs of the open workflow files, in ascending order of their texts. -/
def workflowUrls (c : Coordinator) : List Url :=
  ((c.documents.entries.filter fun e => e.2.qualifies).map (·.1)).mergeSort fun a b =>
    a.text ≤ b.text

/-- Take new settings, and check all documents under them. -/
def configure (settings : Settings) : Reaction := fun c =>
  andThen (change fun c => { c with settings })
    (sequence (c.workflowUrls.map fun url => andThen (endPause url) (check url))) c

def stop : Reaction := fun c =>
  ({ c with documents := {}, published := {}, stopped := true },
    c.documents.values.flatMap OpenDocument.cancel)

def obey : Command → Reaction
  | .opened d => openDocument d
  | .changed url version text => changeDocument url version text
  | .saved url text => saveDocument url text
  | .closed url => closeDocument url
  | .focused url => andThen (change fun c => { c with active := url }) refresh
  | .configured settings => configure settings
  | .rooted workspace => change fun c => { c with workspace }
  | .shutdown => stop

/-! ## Ends -/

/-- The health after an outcome; none when it says nothing about it. -/
def healthAfter? : Outcome → Option Health
  | .findings _ => some .good
  | .warning _ => some .unexpectedOutput
  | .failure f => if f.isNotFound then some .notFound else none

def phaseAfter : Outcome → Phase
  | .findings _ => .idle
  | .warning _ => .unexpectedOutput
  | .failure f => if f.isNotFound then .notInstalled else .failed

/-- The notice an outcome calls for when it makes the health worse, or is no matter of health. -/
def noticeOf? : Outcome → Option Notice
  | .findings _ => none
  | .warning message => some { urgency := .warning, message }
  | .failure f => some { urgency := .error, message := f.text }

/-- The diagnostics an outcome replaces those of the document by. -/
def diagnosticsOf? (run : Run) : Outcome → Option (List Diagnostic)
  | .findings fs =>
    some (diagnoseAll run.request.settings.ruleSeverity (some run.request.text) fs)
  | .warning _ => some []
  | .failure _ => none

/-- Replace the diagnostics of a run's document. -/
def publish (run : Run) (ds : List Diagnostic) : Reaction :=
  andThen (change fun c => { c with published := c.published.replace run.url ds })
    (tell (.published run.url (some run.version) ds))

/-- Take the health after an outcome and give notice of it. -/
def report (o : Outcome) : Reaction := fun c =>
  let notice := match noticeOf? o with
    | some n => tell (.notice n)
    | none => skip
  match healthAfter? o with
  | none => notice c
  | some next =>
    andThen (change fun c => { c with health := next })
      (if c.health.worsens next then notice else skip) c

/-- Take the outcome of a run that was not superseded. -/
def conclude (run : Run) (o : Outcome) : Reaction :=
  andThen
    (match diagnosticsOf? run o with
      | some ds => publish run ds
      | none => skip)
    (report o)

/-- The notice of a run that broke down. -/
def crashNotice (run : Run) (message : String) : Notice :=
  { urgency := .error
    message := s!"flowlint hit an internal error while linting {run.request.relativePath}: " ++
      message }

def finish (run : Run) (result : RunEnd) : Reaction := fun c =>
  match (c.documents.get? run.url).bind fun d => d.run.settle? run.ticket with
  | none => skip c
  | some slot =>
    let (outcome, phase) := match result with
      | .completed r => (conclude run r.outcome, phaseAfter r.outcome)
      | .crashed message => (tell (.notice (crashNotice run message)), .failed)
    sequence [
      change (modify run.url fun d => { d with run := slot }),
      outcome,
      change (modify run.url fun d => { d with phase }),
      refresh,
      tell (.settled run.url)] c

/-- React to a timer that ran out. -/
def elapse (url : Url) (ticket : Ticket) : Reaction := fun c =>
  match (c.documents.get? url).bind fun d => d.pause.settle? ticket with
  | none => skip c
  | some slot =>
    andThen (change (modify url fun d => { d with pause := slot })) (check url) c

/-- React to what is heard. Once stopped, nothing is. -/
def handle (m : Message) : Reaction := fun c =>
  if c.stopped then skip c
  else
    match m with
    | .command command => obey command c
    | .elapsed url ticket => elapse url ticket c
    | .finished run result => finish run result c

/-- Start with settings, roots and documents that are open already. -/
def launch (settings : Settings) (workspace : Workspace) (ds : List Document) :
    Coordinator × List Effect :=
  andThen (sequence (ds.map openDocument)) refresh { settings, workspace }

end Coordinator

end WorkflowLint

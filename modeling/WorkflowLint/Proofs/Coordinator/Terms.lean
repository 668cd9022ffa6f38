import WorkflowLint.Proofs.Coordinator.Life
import WorkflowLint.Proofs.Coordinator.Reactions
import Mathlib.Data.List.Basic
/-!
# What a coordinator works by

A coordinator works by the settings and the roots it was given last. Of all it does, only what it is
told about settings and roots changes them: every other reaction keeps them, because it is put
together from reactions that do (`Reaction.Keeps`).
-/

namespace WorkflowLint

/-- Settings and roots. -/
structure Terms where
  settings : Settings
  workspace : Workspace

def Terms.after (t : Terms) : Command → Terms
  | .configured settings => { t with settings }
  | .rooted workspace => { t with workspace }
  | _ => t

/-- What a coordinator works by. -/
def Coordinator.terms (c : Coordinator) : Terms := { settings := c.settings, workspace := c.workspace }

namespace Reaction

/-- A reaction leaves the terms as they are. -/
def Keeps (r : Reaction) : Prop := ∀ c, (r c).1.terms = c.terms

variable {r s : Reaction}

theorem keeps_skip : Keeps skip := fun _ => rfl

theorem keeps_act (es : List Effect) : Keeps (act es) := fun _ => rfl

theorem keeps_tell (e : Event) : Keeps (tell e) := fun _ => rfl

theorem keeps_andThen (hr : Keeps r) (hs : Keeps s) : Keeps (andThen r s) :=
  fun c => (hs (r c).1).trans (hr c)

theorem keeps_ite {p : Prop} [Decidable p] (hr : Keeps r) (hs : Keeps s) :
    Keeps (if p then r else s) := by
  split
  · exact hr
  · exact hs

theorem keeps_sequence {rs : List Reaction} (h : rs.Forall Keeps) : Keeps (sequence rs) := by
  induction rs with
  | nil => exact keeps_skip
  | cons r rs ih =>
    obtain ⟨hr, hrs⟩ := (List.forall_cons _ r rs).mp h
    exact keeps_andThen hr (ih hrs)

theorem keeps_sequence_map {α : Type} {f : α → Reaction} (h : ∀ a, Keeps (f a)) (as : List α) :
    Keeps (sequence (as.map f)) :=
  keeps_sequence (List.forall_iff_forall_mem.mpr (List.forall_mem_map.mpr fun a _ => h a))

end Reaction

namespace Coordinator

open Reaction

theorem keeps_modify (url : Url) (f : OpenDocument → OpenDocument) : Keeps (change (modify url f)) :=
  fun _ => rfl

theorem keeps_refresh : Keeps refresh := by
  intro c
  rw [refresh]
  split <;> rfl

theorem keeps_clear (url : Url) : Keeps (clear url) := keeps_andThen (fun _ => rfl) (keeps_tell _)

theorem keeps_retire (url : Url) (d : OpenDocument) : Keeps (retire url d) :=
  keeps_sequence ⟨keeps_act _, keeps_modify _ _, keeps_clear _, keeps_refresh, keeps_tell _⟩

theorem keeps_check (url : Url) : Keeps (check url) := by
  intro c
  rw [check]
  split
  · rfl
  · split
    · rfl
    · split
      · exact keeps_retire _ _ c
      · split
        · rfl
        · exact keeps_andThen (fun _ => rfl) keeps_refresh c

theorem keeps_endPause (url : Url) : Keeps (endPause url) := by
  intro c
  rw [endPause]
  split
  · rfl
  · exact keeps_andThen (keeps_act _) (keeps_modify _ _) c

theorem keeps_openDocument (d : Document) : Keeps (openDocument d) := by
  intro c
  exact keeps_andThen (keeps_act _)
    (keeps_andThen (fun _ => rfl) (keeps_ite (keeps_check _) keeps_skip)) c

theorem keeps_changeDocument (url : Url) (version : Int) (text : String) :
    Keeps (changeDocument url version text) := by
  intro c
  rw [changeDocument]
  split
  · rfl
  · exact keeps_andThen (keeps_modify _ _) (keeps_ite (fun _ => rfl) keeps_skip) c

theorem keeps_saveDocument (url : Url) (text : Option String) : Keeps (saveDocument url text) :=
  keeps_sequence ⟨keeps_modify _ _, keeps_endPause _, keeps_check _⟩

theorem keeps_closeDocument (url : Url) : Keeps (closeDocument url) := by
  intro c
  rw [closeDocument]
  split
  · rfl
  · refine keeps_sequence ?_ c
    exact ⟨keeps_act _, fun _ => rfl, keeps_ite (keeps_clear _) keeps_skip, keeps_refresh⟩

theorem keeps_report (o : Outcome) : Keeps (report o) := by
  intro c
  rw [report]
  cases noticeOf? o with
  | none =>
    split
    · exact keeps_skip c
    · exact keeps_andThen (fun _ => rfl) (keeps_ite keeps_skip keeps_skip) c
  | some n =>
    split
    · exact keeps_tell _ c
    · exact keeps_andThen (fun _ => rfl) (keeps_ite (keeps_tell _) keeps_skip) c

theorem keeps_conclude (run : Run) (o : Outcome) : Keeps (conclude run o) := by
  refine keeps_andThen ?_ (keeps_report o)
  split
  · exact keeps_andThen (fun _ => rfl) (keeps_tell _)
  · exact keeps_skip

theorem keeps_finish (run : Run) (result : RunEnd) : Keeps (finish run result) := by
  intro c
  unfold finish
  split
  · rfl
  · cases result with
    | completed r =>
      refine keeps_sequence ?_ c
      exact ⟨keeps_modify _ _, keeps_conclude _ _, keeps_modify _ _, keeps_refresh, keeps_tell _⟩
    | crashed message =>
      refine keeps_sequence ?_ c
      exact ⟨keeps_modify _ _, keeps_tell _, keeps_modify _ _, keeps_refresh, keeps_tell _⟩

theorem keeps_elapse (url : Url) (ticket : Ticket) : Keeps (elapse url ticket) := by
  intro c
  rw [elapse]
  split
  · rfl
  · exact keeps_andThen (keeps_modify _ _) (keeps_check _) c

theorem terms_configure (settings : Settings) (c : Coordinator) :
    (configure settings c).1.terms = c.terms.after (.configured settings) := by
  have hchecks := keeps_sequence_map (fun url => keeps_andThen (keeps_endPause url) (keeps_check url))
    c.workflowUrls
  exact hchecks { c with settings }

theorem terms_obey (command : Command) (c : Coordinator) :
    (obey command c).1.terms = c.terms.after command := by
  cases command with
  | opened d => exact keeps_openDocument d c
  | changed url version text => exact keeps_changeDocument url version text c
  | saved url text => exact keeps_saveDocument url text c
  | closed url => exact keeps_closeDocument url c
  | focused url => exact keeps_andThen (fun _ => rfl) keeps_refresh c
  | configured settings => exact terms_configure settings c
  | rooted workspace => rfl
  | shutdown => rfl

theorem terms_handle {c : Coordinator} (hs : c.stopped = false) (m : Message) :
    (c.handle m).1.terms =
      match m with
      | .command command => c.terms.after command
      | _ => c.terms := by
  rw [handle_of_running hs]
  cases m with
  | command command => exact terms_obey command c
  | elapsed url ticket => exact keeps_elapse url ticket c
  | finished run result => exact keeps_finish run result c

end Coordinator

theorem Launch.terms_coordinator (start : Launch) :
    start.coordinator.terms = { settings := start.settings, workspace := start.workspace } := by
  have hkeeps := Reaction.keeps_andThen
    (Reaction.keeps_sequence_map Coordinator.keeps_openDocument start.documents) Coordinator.keeps_refresh
  exact hkeeps { settings := start.settings, workspace := start.workspace }

end WorkflowLint

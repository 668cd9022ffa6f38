import WorkflowLint.Proofs.Server.Notifications
/-!
# The stages of a server

A server waits for `initialize`, serves, and closes after `shutdown`. Which of the three it is in
can be read off the frames it heard alone (`stage`), and so can the outcome each request has to have
(`Query.outcome`). The server keeps no such stage: it has a session and a flag, and which refusal a
request meets is a matter of the order of its tests. `handled` says all that a frame can come to in
each stage; what is shown of a server later goes by its cases.
-/

namespace WorkflowLint

namespace Server

/-! ## Frames from the editor -/

/-- A frame that has to be answered. -/
structure Query where
  id : Json
  method : String
  params : Json

/-- A frame with an identifier that is not null and a method that is text has to be answered. -/
def query? (frame : Json) : Option Query :=
  match identifier? frame, method? frame with
  | some id, some method => some { id, method, params := (frame.get? "params").getD .null }
  | _, _ => none

/-- Whether a frame is a notification of a method. -/
def isNotice (frame : Json) (m : String) : Bool :=
  (identifier? frame).isNone && decide (method? frame = some m)

/-- Whether a frame ends the conversation. -/
def isExit (frame : Json) : Bool := isNotice frame "exit"

/-! ## Stages -/

/-- What a server is there for. -/
inductive Stage where
  /-- No `initialize` was successful. -/
  | waiting
  | serving
  /-- There was a `shutdown`. -/
  | closing
  deriving DecidableEq

/-- The outcome a request has to have: a result or the number of an error. -/
def Query.outcome (q : Query) : Stage → Except Int Json
  | .waiting =>
    if q.method = "initialize" then
      match InitializeParams.read q.params with
      | .ok _ => .ok abilities
      | .error _ => .error (-32602)
    else .error (-32002)
  | .serving =>
    if q.method = "initialize" then .error (-32600)
    else if q.method = "shutdown" then .ok .null
    else .error (-32601)
  | .closing => .error (-32600)

/-- The stage a granted request leads to. -/
def Stage.succ : Stage → Stage
  | .waiting => .serving
  | _ => .closing

def Stage.next (st : Stage) (frame : Json) : Stage :=
  match query? frame with
  | none => st
  | some q =>
    match q.outcome st with
    | .ok _ => st.succ
    | .error _ => st

def stage (frames : List Json) : Stage := frames.foldl Stage.next .waiting

/-- The requests among frames, with the outcomes they have to have from a stage on. -/
def outcomes : Stage → List Json → List (Query × Except Int Json)
  | _, [] => []
  | stage, frame :: frames =>
    ((query? frame).map fun q => (q, q.outcome stage)).toList ++ outcomes (stage.next frame) frames

def IsAt (server : Server) : Stage → Prop
  | .waiting => server = {}
  | .serving => ∃ x, server = { session := some x }
  | .closing => server = { isShutDown := true }

variable {s : Surroundings} {server : Server} {st : Stage} {frame : Json} {q : Query} {m : String}

theorem stage_snoc (frames : List Json) (frame : Json) :
    stage (frames ++ [frame]) = (stage frames).next frame := by
  rw [stage, List.foldl_append]
  rfl

theorem outcomes_append (st : Stage) (frames frames' : List Json) :
    outcomes st (frames ++ frames') =
      outcomes st frames ++ outcomes (frames.foldl Stage.next st) frames' := by
  induction frames generalizing st with
  | nil => rfl
  | cons frame frames ih => rw [List.cons_append, outcomes, ih, outcomes, List.append_assoc]; rfl

theorem outcomes_snoc (frames : List Json) (frame : Json) :
    outcomes .waiting (frames ++ [frame]) =
      outcomes .waiting frames ++
        ((query? frame).map fun q => (q, q.outcome (stage frames))).toList := by
  rw [outcomes_append, outcomes, outcomes, List.append_nil, stage]

theorem Stage.next_of_none (hq : query? frame = none) : st.next frame = st := by
  rw [Stage.next, hq]

theorem Stage.next_of_error {n : Int} (hq : query? frame = some q) (ho : q.outcome st = .error n) :
    st.next frame = st := by
  simp only [Stage.next, hq, ho]

theorem Stage.next_of_ok {v : Json} (hq : query? frame = some q) (ho : q.outcome st = .ok v) :
    st.next frame = st.succ := by
  simp only [Stage.next, hq, ho]

/-! ## What a frame comes to -/

/-- What the server comes to after a frame, what it does, and how it ends. -/
inductive Handled (s : Surroundings) (server : Server) (frame : Json) :
    Stage → Server × List Action × Option Exit → Prop
  | refused {st : Stage} {q : Query} {r : Refusal} (hq : query? frame = some q)
      (ho : q.outcome st = .error r.code) :
      Handled s server frame st (server, [.send (response q.id (.error r))], none)
  | welcomed {q : Query} {p : InitializeParams} (hq : query? frame = some q)
      (hm : q.method = "initialize") (hp : InitializeParams.read q.params = .ok p) :
      Handled s server frame .waiting
        ({ session := some (Session.begin s p) },
          [.launch ((Session.begin s p).settings s) (Session.begin s p).workspace,
            .send (response q.id (.ok abilities))], none)
  | dismissed {q : Query} (hq : query? frame = some q) (hm : q.method = "shutdown") :
      Handled s server frame .serving
        ({ isShutDown := true }, [.stop, .send (response q.id (.ok .null))], none)
  | told {m : String} {x : Session} {cs : List Command} (hn : isNotice frame m = true)
      (hm : m ≠ "exit") (hcs : .shutdown ∉ cs) :
      Handled s server frame .serving ({ session := some x }, cs.map .command, none)
  | ignored {st : Stage} (hq : query? frame = none) (he : isExit frame = false) :
      Handled s server frame st (server, [], none)
  | shown {st : Stage} (hq : query? frame = none) (hm : method? frame = none) :
      Handled s server frame st (server, [.send (notification "flowlint/showOutput" none)], none)
  | left {st : Stage} (he : isExit frame = true) :
      Handled s server frame st (server, [], some server.exit)

theorem query?_of_isNotice (h : isNotice frame m = true) : query? frame = none := by
  rw [isNotice, Bool.and_eq_true, Option.isNone_iff_eq_none] at h
  rw [query?, h.1]

theorem isExit_of_query? (hq : query? frame = some q) : isExit frame = false := by
  cases he : isExit frame with
  | false => rfl
  | true => rw [query?_of_isNotice he] at hq; cases hq

theorem isExit_of_isNotice (h : isNotice frame m = true) (hm : m ≠ "exit") :
    isExit frame = false := by
  rw [isNotice, Bool.and_eq_true, decide_eq_true_iff] at h
  rw [isExit, isNotice, h.2, Bool.and_eq_false_iff, decide_eq_false_iff_not, Option.some.injEq]
  exact .inr hm

theorem ofFrame?_request (hq : query? frame = some q) :
    Incoming.ofFrame? frame = some (.request q.id q.method q.params) := by
  rw [query?] at hq
  split at hq
  · rename_i id method hid hmethod
    obtain rfl := Option.some.inj hq
    rw [method?] at hmethod
    rw [Incoming.ofFrame?, hid, hmethod]
  · cases hq

theorem ofFrame?_notification (h : isNotice frame m = true) :
    Incoming.ofFrame? frame =
      some (.notification m ((frame.get? "params").getD .null)) := by
  rw [isNotice, Bool.and_eq_true, Option.isNone_iff_eq_none, decide_eq_true_iff, method?] at h
  rw [Incoming.ofFrame?, h.1, h.2]

theorem handled_query (hs : server.IsAt st) (hq : query? frame = some q) :
    Handled s server frame st (server.handle s frame) := by
  rw [handle, ofFrame?_request hq]
  cases st with
  | waiting =>
    obtain rfl := hs
    by_cases hm : q.method = "initialize"
    · cases hp : InitializeParams.read q.params with
      | error e =>
        have ho : q.outcome .waiting = .error (Refusal.badParams e).code := by
          rw [Query.outcome, if_pos hm, hp]
          rfl
        simpa [answer, hm, hp] using Handled.refused hq ho
      | ok p => simpa [answer, hm, hp] using Handled.welcomed hq hm hp
    · have ho : q.outcome .waiting = .error Refusal.notInitialized.code := by
        rw [Query.outcome, if_neg hm]
        rfl
      simpa [answer, hm] using Handled.refused hq ho
  | serving =>
    obtain ⟨x, rfl⟩ := hs
    by_cases hm : q.method = "initialize"
    · have ho : q.outcome .serving = .error Refusal.initialized.code := by
        rw [Query.outcome, if_pos hm]
        rfl
      simpa [answer, hm] using Handled.refused hq ho
    · by_cases hm' : q.method = "shutdown"
      · simpa [answer, hm'] using Handled.dismissed hq hm'
      · have ho : q.outcome .serving = .error (Refusal.unknownMethod q.method).code := by
          rw [Query.outcome, if_neg hm, if_neg hm']
          rfl
        simpa [answer, hm, hm'] using Handled.refused hq ho
  | closing =>
    obtain rfl := hs
    have ho : q.outcome .closing = .error Refusal.shuttingDown.code := rfl
    simpa [answer] using Handled.refused hq ho

theorem handled_notice (hs : server.IsAt st) (hn : isNotice frame m = true) (hm : m ≠ "exit") :
    Handled s server frame st (server.handle s frame) := by
  have hignored : Handled s server frame st (server, [], none) :=
    .ignored (query?_of_isNotice hn) (isExit_of_isNotice hn hm)
  rw [handle_notification (ofFrame?_notification hn) hm, notify]
  cases st with
  | waiting =>
    obtain rfl := hs
    exact hignored
  | serving =>
    obtain ⟨x, rfl⟩ := hs
    rw [Option.bind_some]
    cases hx : x.notice? s m ((frame.get? "params").getD .null) with
    | none => exact hignored
    | some y =>
      obtain ⟨cs, hcs, hshutdown⟩ := commands_notice? hx
      rw [hcs]
      exact .told hn hm hshutdown
  | closing =>
    obtain rfl := hs
    exact hignored

/-- A frame, by the stage it meets. -/
theorem handled (hs : server.IsAt st) (frame : Json) :
    Handled s server frame st (server.handle s frame) := by
  cases hm : method? frame with
  | some m =>
    cases hid : identifier? frame with
    | some id => exact handled_query hs (by rw [query?, hid, hm])
    | none =>
      have hn : isNotice frame m = true := by simp [isNotice, hid, hm]
      by_cases hexit : m = "exit"
      · subst hexit
        have hleft : server.handle s frame = (server, [], some server.exit) := by
          rw [handle, ofFrame?_notification hn]
          rfl
        rw [hleft]
        exact .left hn
      · exact handled_notice hs hn hexit
  | none =>
    have hq : query? frame = none := by
      rw [query?, hm]
      split
      · rename_i heq
        cases heq
      · rfl
    have he : isExit frame = false := by simp [isExit, isNotice, hm]
    rw [method?] at hm
    rw [handle, Incoming.ofFrame?, hm]
    cases hid : identifier? frame with
    | none => exact .ignored hq he
    | some id =>
      by_cases hr : (frame.get? "result").isSome || (frame.get? "error").isSome
      · simp only [hr, if_true]
        split_ifs
        · exact .shown hq hm
        · exact .ignored hq he
      · simp only [hr]
        exact .ignored hq he

/-! ## Consequences -/

variable {x : Server} {as : List Action} {e : Option Exit}

theorem Handled.isAt (hs : server.IsAt st) (h : Handled s server frame st (x, as, e)) :
    x.IsAt (st.next frame) := by
  cases h with
  | refused hq ho => rwa [Stage.next_of_error hq ho]
  | welcomed hq hm hp =>
    rw [Stage.next_of_ok hq (v := abilities) (by rw [Query.outcome, if_pos hm, hp])]
    exact ⟨_, rfl⟩
  | dismissed hq hm =>
    rw [Stage.next_of_ok hq (v := .null) (by rw [Query.outcome, hm]; rfl)]
    rfl
  | told hn =>
    rw [Stage.next_of_none (query?_of_isNotice hn)]
    exact ⟨_, rfl⟩
  | ignored hq => rwa [Stage.next_of_none hq]
  | shown hq => rwa [Stage.next_of_none hq]
  | left he => rwa [Stage.next_of_none (query?_of_isNotice he)]

theorem Handled.exit (h : Handled s server frame st (x, as, e)) :
    e = if isExit frame then some server.exit else none := by
  cases h with
  | refused hq => rw [isExit_of_query? hq]; rfl
  | welcomed hq => rw [isExit_of_query? hq]; rfl
  | dismissed hq => rw [isExit_of_query? hq]; rfl
  | told hn hm => rw [isExit_of_isNotice hn hm]; rfl
  | ignored hq he => rw [he]; rfl
  | shown hq hm => simp [isExit, isNotice, hm]
  | left he => rw [he]; rfl

def Action.frame? : Action → Option Json
  | .send frame => some frame
  | _ => none

/-- A frame answers a request with the outcome it has to have. -/
def Answered (a : Query × Except Int Json) (frame : Json) : Prop := Answers frame a.1.id a.2

theorem forall₂_answered (hq : query? frame = some q) {o : Except Int Json} {f : Json}
    (ho : q.outcome st = o) (hf : Answers f q.id o) :
    List.Forall₂ Answered ((query? frame).map fun q => (q, q.outcome st)).toList
      ([f].filter isResponse) := by
  rw [hq, Option.map_some, Option.toList_some, List.filter_cons_of_pos hf.isResponse, ho]
  exact .cons hf .nil

/-- A request is answered once and with the outcome it has to have, and nothing else is answered. -/
theorem Handled.answered (h : Handled s server frame st (x, as, e)) :
    List.Forall₂ Answered ((query? frame).map fun q => (q, q.outcome st)).toList
      ((as.filterMap Action.frame?).filter isResponse) := by
  cases h with
  | refused hq ho => exact forall₂_answered hq ho (answers_refusal _ _)
  | welcomed hq hm hp =>
    exact forall₂_answered hq (by rw [Query.outcome, if_pos hm, hp]) (answers_result _ _)
  | dismissed hq hm =>
    exact forall₂_answered hq (by rw [Query.outcome, hm]; rfl) (answers_result _ _)
  | told hn =>
    have hnone : ∀ cs : List Command, (cs.map Action.command).filterMap Action.frame? = [] := by
      intro cs
      rw [List.filterMap_map, List.filterMap_eq_nil_iff]
      exact fun _ _ => rfl
    rw [query?_of_isNotice hn, hnone]
    exact .nil
  | ignored hq => rw [hq]; exact .nil
  | shown hq =>
    rw [hq]
    simp [Action.frame?, isResponse_notification]
  | left he => rw [query?_of_isNotice he]; exact .nil

end Server

end WorkflowLint

import WorkflowLint.Proofs.Server.Lifecycle
import WorkflowLint.Server.Conversation
/-!
# Requests and responses

Whatever a conversation meets, and whatever the coordinator, its tool and the clock do in between,
each request is answered once, in the order of the requests and with the outcome its stage calls
for, and nothing else is answered (`disciplined`). What the coordinator tells goes the same way to
the editor and is no response, so it is enough to follow what each frame adds (`Orderly.meet`).
-/

namespace WorkflowLint

namespace Server

/-- The frames that count: those before the first `exit`. -/
def heard (frames : List Json) : List Json := frames.takeWhile fun frame => !isExit frame

/-- How the conversation has to end. -/
def ending (frames : List Json) : Exit := if stage frames = .closing then .clean else .abrupt

/-- A frame asked for `shutdown` and was granted it. -/
def ShutDownBy (frames : List Json) : Prop :=
  ∃ a ∈ outcomes .waiting frames, a.1.method = "shutdown" ∧ a.2 = .ok .null

theorem heard_snoc (frames : List Json) (frame : Json) :
    heard (frames ++ [frame]) =
      if (frames ++ [frame]).any isExit then heard frames else heard frames ++ [frame] := by
  induction frames with
  | nil => cases hf : isExit frame <;> simp [heard, hf]
  | cons f frames ih =>
    cases hf : isExit f with
    | false =>
      have hcons : ∀ fs, heard (f :: fs) = f :: heard fs := by
        intro fs
        rw [heard, List.takeWhile_cons_of_pos (by rw [hf]; rfl), heard]
      rw [List.cons_append, hcons, hcons, ih, List.any_cons, hf, Bool.false_or]
      split_ifs <;> rfl
    | true =>
      have hcons : ∀ fs, heard (f :: fs) = [] := by
        intro fs
        rw [heard, List.takeWhile_cons_of_neg (by rw [hf]; decide)]
      rw [List.cons_append, hcons, hcons, List.any_cons, hf, Bool.true_or, if_pos rfl]

/-- What a conversation meets: a frame, or what is done elsewhere. -/
inductive Happening where
  | frame (frame : Json)
  /-- The coordinator comes to rest. -/
  | rest
  | time (delay : Nat)
  /-- A call of the tool is answered. -/
  | reply (number : Nat) (result : RunEnd)

def Happening.frame? : Happening → Option Json
  | .frame body => some body
  | .rest | .time _ | .reply _ _ => none

namespace Conversation

def meet (c : Conversation) : Happening → Conversation
  | .frame body => c.receive (.ok body)
  | .rest => c.settle
  | .time delay => c.advance delay
  | .reply number result => c.answer number result

def responses (c : Conversation) : List Json := c.frames.filter isResponse

/-! ## What the coordinator tells -/

variable {c d : Conversation} {frames : List Json}

/-- Two conversations are at one point as far as requests go. -/
structure Level (c d : Conversation) : Prop where
  server : d.server = c.server
  ended : d.ended = c.ended
  responses : d.responses = c.responses

theorem level_drain (c : Conversation) : Level c c.drain := by
  rw [drain]
  split
  · exact ⟨rfl, rfl, rfl⟩
  · rename_i r _
    refine ⟨rfl, rfl, ?_⟩
    have hnews : (relay c.notices r.events.reverse).1.filter isResponse = [] := by
      rw [List.filter_eq_nil_iff]
      intro frame hf
      rw [isResponse_of_isNews (isNews_relay _ _ frame hf)]
      exact Bool.false_ne_true
    rw [responses, List.filter_append, hnews, List.append_nil, responses]

theorem level_play_drain (c : Conversation) (f : Rehearsal → Rehearsal) :
    Level c (c.play f).drain :=
  let h := level_drain (c.play f)
  ⟨h.server, h.ended, h.responses⟩

/-! ## Actions -/

theorem send_eq (c : Conversation) (frame : Json) :
    ∃ d, Level c d ∧ c.send frame =
      { d with frames := d.frames ++ [frame], queued := d.queued + 1 } := by
  refine ⟨if c.queued < outboxRoom then c else c.drain, ?_, rfl⟩
  split
  · exact ⟨rfl, rfl, rfl⟩
  · exact level_drain c

theorem server_perform (c : Conversation) (a : Action) : (c.perform a).server = c.server := by
  cases a with
  | launch => rfl
  | command => rfl
  | stop => exact (level_play_drain c _).server
  | send frame =>
    obtain ⟨d, hlevel, hd⟩ := send_eq c frame
    rw [perform, hd]
    exact hlevel.server

theorem ended_perform (c : Conversation) (a : Action) : (c.perform a).ended = c.ended := by
  cases a with
  | launch => rfl
  | command => rfl
  | stop => exact (level_play_drain c _).ended
  | send frame =>
    obtain ⟨d, hlevel, hd⟩ := send_eq c frame
    rw [perform, hd]
    exact hlevel.ended

theorem responses_perform (c : Conversation) (a : Action) :
    (c.perform a).responses = c.responses ++ a.frame?.toList.filter isResponse := by
  cases a with
  | launch => exact (List.append_nil _).symm
  | command => exact (List.append_nil _).symm
  | stop => exact (level_play_drain c _).responses.trans (List.append_nil _).symm
  | send frame =>
    obtain ⟨d, hlevel, hd⟩ := send_eq c frame
    rw [perform, hd, ← hlevel.responses]
    exact List.filter_append _ _

theorem foldl_perform (c : Conversation) (as : List Action) :
    (as.foldl perform c).server = c.server ∧ (as.foldl perform c).ended = c.ended ∧
      (as.foldl perform c).responses =
        c.responses ++ (as.filterMap Action.frame?).filter isResponse := by
  induction as generalizing c with
  | nil => exact ⟨rfl, rfl, (List.append_nil _).symm⟩
  | cons a as ih =>
    obtain ⟨hserver, hended, hresponses⟩ := ih (c.perform a)
    refine ⟨hserver.trans (server_perform c a), hended.trans (ended_perform c a), ?_⟩
    rw [List.foldl_cons, hresponses, responses_perform, List.append_assoc, ← List.filter_append]
    cases a <;> rfl

theorem finish_eq (c : Conversation) (how : Except Frame.Fault Exit) :
    (c.finish how).server = c.server ∧ (c.finish how).ended = some how ∧
      (c.finish how).responses = c.responses := by
  rw [finish]
  split_ifs
  · have hlevel := level_play_drain c (·.hear (.command .shutdown))
    exact ⟨hlevel.server, rfl, hlevel.responses⟩
  · exact ⟨rfl, rfl, rfl⟩

/-! ## What a conversation meets -/

/-- A conversation kept to the order of requests over frames. -/
structure Orderly (c : Conversation) (frames : List Json) : Prop where
  isAt : c.server.IsAt (stage (heard frames))
  answered : List.Forall₂ Answered (outcomes .waiting (heard frames)) c.responses
  ended : c.ended = if frames.any isExit then some (.ok (ending (heard frames))) else none

theorem Orderly.level (h : Orderly c frames) (hd : Level c d) : Orderly d frames where
  isAt := by rw [hd.server]; exact h.isAt
  answered := by rw [hd.responses]; exact h.answered
  ended := by rw [hd.ended]; exact h.ended

theorem receive_of_ended (h : c.ended ≠ none) (body : Except Json.SyntaxError Json) :
    c.receive body = c := by
  unfold receive
  split
  · contradiction
  · rfl

theorem exit_eq {server : Server} (h : server.IsAt (stage frames)) :
    server.exit = ending frames := by
  rw [ending]
  cases hs : stage frames with
  | waiting => rw [hs] at h; obtain rfl := h; rfl
  | serving => rw [hs] at h; obtain ⟨x, rfl⟩ := h; rfl
  | closing => rw [hs] at h; obtain rfl := h; rfl

theorem receive_of_handle (h : c.ended = none) (frame : Json) {server : Server} {as : List Action}
    {exit : Option Exit} (hh : c.server.handle c.surroundings frame = (server, as, exit)) :
    c.receive (.ok frame) =
      exit.elim (as.foldl perform { c with server })
        fun how => (as.foldl perform { c with server }).finish (.ok how) := by
  unfold receive
  split
  · rename_i hf
    obtain rfl := Except.ok.inj hf
    rw [hh]
    cases exit <;> rfl
  · rename_i hne
    exact absurd rfl (hne frame h)

theorem receive_eq (h : c.ended = none) (frame : Json) {server : Server} {as : List Action}
    {exit : Option Exit} (hh : c.server.handle c.surroundings frame = (server, as, exit)) :
    (c.receive (.ok frame)).server = server ∧
      (c.receive (.ok frame)).ended = exit.map .ok ∧
      (c.receive (.ok frame)).responses =
        c.responses ++ (as.filterMap Action.frame?).filter isResponse := by
  obtain ⟨hserver, hended, hresponses⟩ := foldl_perform { c with server } as
  rw [receive_of_handle h frame hh]
  cases exit with
  | none => exact ⟨hserver, hended.trans h, hresponses⟩
  | some e =>
    obtain ⟨hserver', hended', hresponses'⟩ :=
      finish_eq (as.foldl perform { c with server }) (.ok e)
    exact ⟨hserver'.trans hserver, hended', hresponses'.trans hresponses⟩

theorem Orderly.receive (h : Orderly c frames) (frame : Json) :
    Orderly (c.receive (.ok frame)) (frames ++ [frame]) := by
  have hended := h.ended
  cases hany : frames.any isExit with
  | true =>
    have hany' : (frames ++ [frame]).any isExit = true := by rw [List.any_append, hany]; rfl
    have hheard : heard (frames ++ [frame]) = heard frames := by rw [heard_snoc, if_pos hany']
    rw [hany, if_pos rfl] at hended
    rw [receive_of_ended (by rw [hended]; exact Option.some_ne_none _)]
    refine ⟨?_, ?_, ?_⟩
    · rw [hheard]; exact h.isAt
    · rw [hheard]; exact h.answered
    · rw [hheard, if_pos hany', hended]
  | false =>
    rw [hany, if_neg Bool.false_ne_true] at hended
    have hhandled := handled (s := c.surroundings) h.isAt frame
    obtain ⟨⟨server, as, exit⟩, hh⟩ :
        ∃ r, c.server.handle c.surroundings frame = r := ⟨_, rfl⟩
    rw [hh] at hhandled
    obtain ⟨hserver', hended', hresponses'⟩ := receive_eq hended frame hh
    have hisAt : (c.receive (.ok frame)).server.IsAt (stage (heard frames ++ [frame])) := by
      rw [hserver', stage_snoc]
      exact hhandled.isAt h.isAt
    have hanswered : List.Forall₂ Answered (outcomes .waiting (heard frames ++ [frame]))
        (c.receive (.ok frame)).responses := by
      rw [outcomes_snoc, hresponses']
      exact List.rel_append h.answered hhandled.answered
    have hexit := hhandled.exit
    have hheard := heard_snoc frames frame
    have hany' : (frames ++ [frame]).any isExit = isExit frame := by simp [List.any_append, hany]
    cases he : isExit frame with
    | true =>
      have hq := query?_of_isNotice he
      rw [hany', he, if_pos rfl] at hheard
      rw [stage_snoc, Stage.next_of_none hq] at hisAt
      rw [outcomes_snoc, hq, Option.map_none, Option.toList_none, List.append_nil] at hanswered
      refine ⟨?_, ?_, ?_⟩
      · rwa [hheard]
      · rwa [hheard]
      · rw [hended', hexit, he, if_pos rfl, exit_eq h.isAt, hany', he, if_pos rfl, hheard]
        rfl
    | false =>
      rw [hany', he, if_neg Bool.false_ne_true] at hheard
      refine ⟨?_, ?_, ?_⟩
      · rwa [hheard]
      · rwa [hheard]
      · rw [hended', hexit, he, if_neg Bool.false_ne_true, hany', he, if_neg Bool.false_ne_true]
        rfl

theorem Orderly.meet (h : Orderly c frames) (x : Happening) :
    Orderly (c.meet x) (frames ++ x.frame?.toList) := by
  have helsewhere : ∀ f, Orderly (c.play f).drain (frames ++ []) := by
    intro f
    rw [List.append_nil]
    exact h.level (level_play_drain c f)
  cases x with
  | frame body => exact h.receive body
  | rest => exact helsewhere _
  | time delay => exact helsewhere _
  | reply number result => exact helsewhere _

theorem Orderly.foldl_meet (h : Orderly c frames) (xs : List Happening) :
    Orderly (xs.foldl Conversation.meet c) (frames ++ xs.filterMap Happening.frame?) := by
  induction xs generalizing c frames with
  | nil =>
    rw [List.filterMap_nil, List.append_nil]
    exact h
  | cons x xs ih =>
    have hx := ih (h.meet x)
    rw [List.append_assoc] at hx
    cases x <;> exact hx

theorem orderly_start (s : Surroundings) (script : List RunEnd) :
    Orderly { surroundings := s, script } [] := ⟨rfl, .nil, rfl⟩

theorem Orderly.receive_notice (h : Orderly c frames) {frame : Json} {m : String}
    (hn : isNotice frame m = true) (hm : m ≠ "exit") (hs : stage (heard frames) ≠ .serving) :
    c.receive (.ok frame) = c := by
  cases hended : c.ended with
  | some how => exact receive_of_ended (by rw [hended]; exact Option.some_ne_none how) _
  | none =>
    have hignored : c.server.handle c.surroundings frame = (c.server, [], none) := by
      have hhandled := handled_notice (s := c.surroundings) h.isAt hn hm
      generalize c.server.handle c.surroundings frame = r at hhandled
      generalize stage (heard frames) = st at hs hhandled
      cases hhandled with
      | refused hq => rw [query?_of_isNotice hn] at hq; cases hq
      | welcomed hq => rw [query?_of_isNotice hn] at hq; cases hq
      | dismissed hq => rw [query?_of_isNotice hn] at hq; cases hq
      | told => exact absurd rfl hs
      | ignored => rfl
      | shown hq hm' => simp [isNotice, hm'] at hn
      | left he => rw [isExit_of_isNotice hn hm] at he; cases he
    rw [receive_of_handle hended frame hignored]
    rfl

/-! ## All conversations -/

theorem shutdown_iff (q : Query) (st : Stage) :
    q.method = "shutdown" ∧ q.outcome st = .ok .null ↔
      st = .serving ∧ ∃ v, q.outcome st = .ok v := by
  cases st with
  | waiting =>
    constructor
    · rintro ⟨hm, ho⟩
      rw [Query.outcome, hm, if_neg (by decide)] at ho
      cases ho
    · rintro ⟨hst, -⟩
      cases hst
  | serving =>
    constructor
    · rintro ⟨-, ho⟩
      exact ⟨rfl, _, ho⟩
    · rintro ⟨-, v, ho⟩
      rw [Query.outcome] at ho ⊢
      split_ifs at ho ⊢ with hi hs
      exact ⟨hs, rfl⟩
  | closing =>
    constructor
    · rintro ⟨-, ho⟩
      cases ho
    · rintro ⟨hst, -⟩
      cases hst

theorem foldl_next_eq_closing_iff (st : Stage) (frames : List Json) :
    frames.foldl Stage.next st = .closing ↔
      st = .closing ∨ ∃ a ∈ outcomes st frames, a.1.method = "shutdown" ∧ a.2 = .ok .null := by
  induction frames generalizing st with
  | nil => simp [outcomes]
  | cons frame frames ih =>
    rw [List.foldl_cons, ih, outcomes]
    cases hq : query? frame with
    | none => rw [Stage.next_of_none hq]; rfl
    | some q =>
      have hshutdown := shutdown_iff q st
      simp only [Option.map_some, Option.toList_some, List.singleton_append, List.mem_cons,
        exists_eq_or_imp, hshutdown]
      cases ho : q.outcome st with
      | error n =>
        rw [Stage.next_of_error hq ho]
        simp
      | ok v =>
        rw [Stage.next_of_ok hq ho]
        cases st <;> simp [Stage.succ]

theorem stage_eq_closing_iff (frames : List Json) :
    stage frames = .closing ↔ ShutDownBy frames := by
  rw [stage, foldl_next_eq_closing_iff, or_iff_right (by decide), ShutDownBy]

/-- Over whatever a conversation meets, each request before the first `exit` is answered once, in
the order of the requests and with the outcome its stage calls for, and nothing else is answered.
The server is in that stage; outside a session notifications are without effect, and the first
`exit` ends the conversation. -/
theorem disciplined (s : Surroundings) (script : List RunEnd) (xs : List Happening) :
    let c := xs.foldl meet { surroundings := s, script }
    let frames := xs.filterMap Happening.frame?
    List.Forall₂ Answered (outcomes .waiting (heard frames)) c.responses ∧
      c.server.IsAt (stage (heard frames)) ∧
      (stage (heard frames) ≠ .serving → ∀ frame m, isNotice frame m = true → m ≠ "exit" →
        c.receive (.ok frame) = c) ∧
      c.ended = (if frames.any isExit then some (.ok (ending (heard frames))) else none) ∧
      (ending (heard frames) = .clean ↔ ShutDownBy (heard frames)) := by
  intro c frames
  have h : Orderly c frames := (orderly_start s script).foldl_meet xs
  refine ⟨h.answered, h.isAt, fun hs frame m hn hm => h.receive_notice hn hm hs, h.ended, ?_⟩
  rw [← stage_eq_closing_iff, ending]
  split_ifs with hs
  · exact iff_of_true rfl hs
  · exact iff_of_false (by decide) hs

end Conversation

end Server

end WorkflowLint

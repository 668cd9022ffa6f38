import WorkflowLint.Proofs.Coordinator.LiveRuns
import WorkflowLint.Proofs.Server.Service
/-!
# What holds however the tasks take turns

What the server task has still to do says how far everything has come (`Agenda`): it waits for the
coordinator and the carrier before it answers `shutdown` and before it dismisses the writer, and
`shutdown` is the last command it sends. The frames about what the coordinator told are those
`relay` makes of it, in its order: what was taken from the queue of events is on the path or in the
hand of the carrier, and the rest is still to come (`Sound.carried`). Each step keeps all of it
(`Sound.step`).
-/

namespace WorkflowLint

namespace Server

/-! ## Where the tasks are -/

/-- The coordinator was launched and not told to shut down. -/
def Tenure.Obeys : Tenure → Prop
  | .called _ => True
  | .held c h _ => c.stopped = false ∧ .heard (.command .shutdown) ∉ h
  | _ => False

def Tenure.IsActive : Tenure → Prop
  | .called _ | .held _ _ _ => True
  | _ => False

def Tenure.HasStopped : Tenure → Prop
  | .held c _ _ => c.stopped = true
  | .over _ => True
  | _ => False

namespace Service

def Idle (x : Service) : Prop := x.tenure = .vacant ∧ x.commands = []

/-- The coordinator obeys, and is not about to be told to shut down. -/
def Working (x : Service) : Prop := x.tenure.Obeys ∧ .shutdown ∉ x.commands

/-- The last command is to shut down, or the coordinator has done so. -/
def Stopping (x : Service) : Prop :=
  (x.tenure.Obeys ∧ ∃ cs, x.commands = cs ++ [.shutdown] ∧ .shutdown ∉ cs) ∨
    x.tenure.HasStopped ∧ x.commands = []

/-- The coordinator is gone, and the carrier too. -/
def Spent (x : Service) : Prop :=
  (∃ h, x.tenure = .over h) ∧ x.commands = [] ∧ x.carrier.ended = true

/-- Nothing is told any more, unless a coordinator is launched. -/
def Silent (x : Service) : Prop := x.Idle ∨ x.Spent

/-- The coordinator was launched and heard nothing. -/
def Fresh (x : Service) : Prop :=
  x.commands = [] ∧ ∃ settings workspace, x.tenure = .called { settings, workspace } ∨
    ∃ es, x.tenure = .held (Launch.coordinator { settings, workspace })
      (Launch.history { settings, workspace }) es

/-- The server task has only to wait for the writer. -/
def Parted (x : Service) : Prop := x.errands = [] ∧ x.ending ≠ none ∧ x.Silent

/-- The server reads on. -/
structure Open (x : Service) : Prop where
  ending : x.ending = none
  idle : stage x.heard = .waiting → x.Idle
  working : stage x.heard = .serving → x.Working
  spent : stage x.heard = .closing → x.Spent

/-- What the server does once nothing is told any more. -/
inductive Closes (x : Service) : Errand → Prop
  | response {id : Json} (hn : x.ending = none) (hs : stage x.heard = .closing) :
      Closes x (.send (response id (.ok .null)))
  | dismissal (hn : x.ending ≠ none) : Closes x .dismiss

end Service

/-- What the server task has to do, and what has come about by then. -/
inductive Agenda (x : Service) : List Errand → Prop
  | reading (ho : x.Open) : Agenda x []
  | replying {frame : Json} (ho : x.Open) (hf : isNews frame = false)
      (hv : ∀ id v, frame ≠ response id (.ok v)) : Agenda x [.send frame]
  | welcoming {settings : Settings} {workspace : Workspace} {id : Json} (hn : x.ending = none)
      (hs : stage x.heard = .serving) (hi : x.Idle) :
      Agenda x [.launch { settings, workspace }, .send (response id (.ok abilities))]
  | welcomed {id : Json} (ho : x.Open) (hs : stage x.heard = .serving) (hf : x.Fresh) :
      Agenda x [.send (response id (.ok abilities))]
  | commanding {es : List Errand} (ho : x.Open) (hs : stage x.heard = .serving)
      (he : ∀ e ∈ es, ∃ c, e = .command c ∧ c ≠ .shutdown) : Agenda x es
  | stopping {last : Errand} (hl : x.Closes last) (hw : x.Working) :
      Agenda x [.command .shutdown, .join, last]
  | joining {last : Errand} (hl : x.Closes last) (hs : x.Stopping) : Agenda x [.join, last]
  | answering {id : Json} (hn : x.ending = none) (hs : stage x.heard = .closing) (hp : x.Spent) :
      Agenda x [.send (response id (.ok .null))]
  | dismissing (hn : x.ending ≠ none) (hs : x.Silent) : Agenda x [.dismiss]
  | dismissed (hn : x.ending ≠ none) (hs : x.Silent) : Agenda x []

/-- What waits for the writer: the word to end comes last, and nothing comes after it. -/
inductive Queue (x : Service) : Prop
  | taking (frames : List Json) (ho : x.outbox = frames.map .frame) (hw : x.writer.ended = false)
  | dismissed (frames : List Json) (ho : x.outbox = frames.map .frame ++ [.dismissal])
      (hw : x.writer.ended = false) (hp : x.Parted)
  | closed (ho : x.outbox = []) (hh : x.writer.hand = none) (hw : x.writer.ended = true)
      (hp : x.Parted)

/-- What holds however the tasks take turns. -/
structure Sound (x : Service) : Prop where
  isAt : x.server.IsAt (stage x.heard)
  agenda : Agenda x x.errands
  answered : List.Forall₂ Answered (outcomes .waiting x.heard) ((x.path ++ x.due).filter isResponse)
  carried : ∃ taken, x.tenure.history.events = taken ++ (x.events ++ x.tenure.untold) ∧
    relay 0 taken = (x.path.filter isNews ++ x.carrier.hand.toList, x.carrier.number)
  left : x.carrier.ended = true → (∃ h, x.tenure = .over h) ∧ x.events = [] ∧ x.carrier.hand = none
  queue : Queue x
  returned : x.hasReturned = true → x.writer.ended = true

variable {s : Surroundings} {x y : Service} {es : List Errand} {frame : Json}

theorem Service.Open.of_serving (hn : x.ending = none) (hs : stage x.heard = .serving)
    (hw : x.Working) : x.Open where
  ending := hn
  idle hw := by rw [hs] at hw; cases hw
  working _ := hw
  spent hc := by rw [hs] at hc; cases hc

theorem not_commands {first : Errand} (hfirst : ∀ c, first ≠ .command c) :
    ¬∀ e ∈ first :: es, ∃ c, e = .command c ∧ c ≠ .shutdown := by
  intro hall
  obtain ⟨c, hc, -⟩ := hall _ List.mem_cons_self
  exact hfirst c hc

theorem Agenda.mono (h : Agenda x es) (hheard : y.heard = x.heard) (hending : y.ending = x.ending)
    (hidle : x.Idle → y.Idle) (hworking : x.Working → y.Working)
    (hstopping : x.Stopping → y.Stopping) (hspent : x.Spent → y.Spent)
    (hfresh : x.Fresh → y.Fresh) : Agenda y es := by
  have hopen : x.Open → y.Open := by
    intro ho
    refine ⟨hending.trans ho.ending, ?_, ?_, ?_⟩
    · intro hs
      exact hidle (ho.idle (hheard ▸ hs))
    · intro hs
      exact hworking (ho.working (hheard ▸ hs))
    · intro hs
      exact hspent (ho.spent (hheard ▸ hs))
  have hsilent : x.Silent → y.Silent := Or.imp hidle hspent
  have hcloses : ∀ {last}, x.Closes last → y.Closes last := by
    intro last hl
    cases hl with
    | response hn hs => exact .response (hending.trans hn) (hheard ▸ hs)
    | dismissal hn => exact .dismissal (hending ▸ hn)
  cases h with
  | reading ho => exact .reading (hopen ho)
  | replying ho hf hv => exact .replying (hopen ho) hf hv
  | welcoming hn hs hi => exact .welcoming (hending.trans hn) (hheard ▸ hs) (hidle hi)
  | welcomed ho hs hf => exact .welcomed (hopen ho) (hheard ▸ hs) (hfresh hf)
  | commanding ho hs he => exact .commanding (hopen ho) (hheard ▸ hs) he
  | stopping hl hw => exact .stopping (hcloses hl) (hworking hw)
  | joining hl hs => exact .joining (hcloses hl) (hstopping hs)
  | answering hn hs hp => exact .answering (hending.trans hn) (hheard ▸ hs) (hspent hp)
  | dismissing hn hs => exact .dismissing (hending ▸ hn) (hsilent hs)
  | dismissed hn hs => exact .dismissed (hending ▸ hn) (hsilent hs)

theorem Queue.mono (h : Queue x) (hp : x.Parted → y.Parted) (ho : y.outbox = x.outbox)
    (hw : y.writer = x.writer) : Queue y := by
  cases h with
  | taking frames ho' hw' => exact .taking frames (ho ▸ ho') (hw ▸ hw')
  | dismissed frames ho' hw' hp' => exact .dismissed frames (ho ▸ ho') (hw ▸ hw') (hp hp')
  | closed ho' hh' hw' hp' => exact .closed (ho ▸ ho') (hw ▸ hh') (hw ▸ hw') (hp hp')

theorem Queue.put (h : Queue x) (hp : ¬ x.Parted) :
    ∃ frames : List Json, x.outbox = frames.map .frame ∧ x.writer.ended = false := by
  cases h with
  | taking frames ho hw => exact ⟨frames, ho, hw⟩
  | dismissed frames ho hw hp' => exact absurd hp' hp
  | closed ho hh hw hp' => exact absurd hp' hp

theorem Queue.keep (h : Queue x) (hp : ¬ x.Parted) (ho : y.outbox = x.outbox)
    (hw : y.writer = x.writer) : Queue y :=
  h.mono (fun hp' => absurd hp' hp) ho hw

theorem Service.not_parted {e : Errand} (he : x.errands = e :: es) : ¬ x.Parted := by
  intro hp
  rw [hp.1] at he
  cases he

theorem Agenda.open_of_nil (h : Agenda x []) (hn : x.ending = none) : x.Open := by
  cases h with
  | reading ho => exact ho
  | commanding ho => exact ho
  | dismissed hn' => exact absurd hn hn'

theorem Agenda.isNews (h : Agenda x es) :
    ∀ frame ∈ es.filterMap Errand.frame?, isNews frame = false := by
  have hresponse : ∀ id v, Server.isNews (response id (.ok v)) = false := fun id v =>
    isNews_of_isResponse (answers_result id v).isResponse
  cases h with
  | reading => simp
  | replying ho hf => simpa [Errand.frame?] using hf
  | welcoming => simpa [Errand.frame?] using hresponse _ _
  | welcomed => simpa [Errand.frame?] using hresponse _ _
  | commanding ho hs he => 
    intro frame hf
    obtain ⟨e, hmem, heq⟩ := List.mem_filterMap.mp hf
    obtain ⟨c, rfl, -⟩ := he e hmem
    cases heq
  | stopping hl => cases hl <;> simp [Errand.frame?, hresponse]
  | joining hl => cases hl <;> simp [Errand.frame?, hresponse]
  | answering => simpa [Errand.frame?] using hresponse _ _
  | dismissing => simp [Errand.frame?]
  | dismissed => simp

theorem Sound.hand_of_silent (h : Sound x) (hs : x.Silent) :
    x.events = [] ∧ x.carrier.hand = none := by
  obtain hidle | hspent := hs
  · obtain ⟨taken, hevents, hrelay⟩ := h.carried
    have hnil : taken ++ (x.events ++ x.tenure.untold) = [] := by
      rw [← hevents, hidle.1]
      rfl
    obtain ⟨rfl, hrest⟩ := List.append_eq_nil_iff.mp hnil
    have hhand := (List.append_eq_nil_iff.mp (congrArg Prod.fst hrelay).symm).2
    exact ⟨(List.append_eq_nil_iff.mp hrest).1, Option.toList_eq_nil_iff.mp hhand⟩
  · exact (h.left hspent.2.2).2

theorem Sound.isNews_hand (h : Sound x) (hh : x.carrier.hand = some frame) :
    isNews frame = true := by
  obtain ⟨taken, htaken, hrelay⟩ := h.carried
  have hmem : frame ∈ (relay 0 taken).1 := by
    rw [hrelay, hh]
    exact List.mem_append_right _ List.mem_cons_self
  exact isNews_relay _ _ frame hmem

/-! ## The server task -/

theorem agenda_farewell {server : Server} {st : Stage} (hat : server.IsAt st)
    (hidle : st = .waiting → x.Idle) (hworking : st = .serving → x.Working)
    (hspent : st = .closing → x.Spent) (hn : x.ending ≠ none) : Agenda x (farewell server) := by
  cases st with
  | waiting =>
    obtain rfl := hat
    exact .dismissing hn (.inl (hidle rfl))
  | serving =>
    obtain ⟨session, rfl⟩ := hat
    exact .stopping (.dismissal hn) (hworking rfl)
  | closing =>
    obtain rfl := hat
    exact .dismissing hn (.inr (hspent rfl))

theorem agenda_read {server : Server} {as : List Action} {exit : Option Exit} {st : Stage}
    (hat : x.server.IsAt st) (hidle : st = .waiting → x.Idle)
    (hworking : st = .serving → x.Working) (hspent : st = .closing → x.Spent)
    (h : Handled s x.server frame st (server, as, exit)) (hheard : stage y.heard = st.next frame)
    (htenure : y.tenure = x.tenure) (hcommands : y.commands = x.commands)
    (hcarrier : y.carrier = x.carrier) (hending : y.ending = exit.map .ok) :
    Agenda y (as.flatMap Action.errands ++ if exit.isSome then farewell server else []) := by
  have hidle' : x.Idle → y.Idle := by
    intro hi
    rwa [Service.Idle, htenure, hcommands]
  have hworking' : x.Working → y.Working := by
    intro hw
    rwa [Service.Working, htenure, hcommands]
  have hspent' : x.Spent → y.Spent := by
    intro hs
    rwa [Service.Spent, htenure, hcommands, hcarrier]
  have hopen : exit = none → st.next frame = st → y.Open := by
    rintro rfl hst
    rw [hst] at hheard
    refine ⟨hending, fun hs => hidle' (hidle ?_), fun hs => hworking' (hworking ?_),
      fun hs => hspent' (hspent ?_)⟩
    · rw [← hheard, hs]
    · rw [← hheard, hs]
    · rw [← hheard, hs]
  cases h with
  | refused hq ho =>
    exact .replying (hopen rfl (Stage.next_of_error hq ho))
      (isNews_of_isResponse (answers_refusal _ _).isResponse) (fun id v => response_ne _ _ _ _)
  | welcomed hq hm hp =>
    rw [Stage.next_of_ok hq (v := abilities) (by rw [Query.outcome, if_pos hm, hp])] at hheard
    exact .welcoming hending hheard (hidle' (hidle rfl))
  | dismissed hq hm =>
    rw [Stage.next_of_ok hq (v := .null) (by rw [Query.outcome, hm]; rfl)] at hheard
    exact .stopping (.response hending hheard) (hworking' (hworking rfl))
  | told hn hm hcs =>
    have hst : Stage.next .serving frame = .serving := Stage.next_of_none (query?_of_isNotice hn)
    refine .commanding (hopen rfl hst) (hheard.trans hst) ?_
    intro e he
    simp only [List.flatMap_map, Action.errands, Option.isSome_none, Bool.false_eq_true, if_false,
      List.append_nil, List.mem_flatMap, List.mem_singleton] at he
    obtain ⟨c, hmem, rfl⟩ := he
    exact ⟨c, rfl, fun hc => hcs (hc ▸ hmem)⟩
  | ignored hq => exact .reading (hopen rfl (Stage.next_of_none hq))
  | shown hq =>
    refine .replying (hopen rfl (Stage.next_of_none hq)) ?_ ?_
    · rw [isNews, method?_notification]
      decide
    · exact fun id v => notification_ne_response _ _ _ _
  | left he =>
    refine agenda_farewell hat (fun hs => hidle' (hidle hs)) (fun hs => hworking' (hworking hs))
      (fun hs => hspent' (hspent hs)) ?_
    rw [hending]
    exact Option.some_ne_none _

theorem filterMap_errands (as : List Action) :
    (as.flatMap Action.errands).filterMap Errand.frame? = as.filterMap Action.frame? := by
  induction as with
  | nil => rfl
  | cons a as ih =>
    rw [List.flatMap_cons, List.filterMap_append, ih]
    cases a <;> rfl

theorem filterMap_farewell (server : Server) :
    (farewell server).filterMap Errand.frame? = [] := by
  rw [farewell]
  split_ifs <;> rfl

theorem Sound.read (h : Sound x) (he : x.errands = []) (hn : x.ending = none) (frame : Json) :
    Sound (x.read s frame) := by
  have hopen : x.Open := by
    have hagenda := h.agenda
    rw [he] at hagenda
    exact hagenda.open_of_nil hn
  have hhandled := handled (s := s) h.isAt frame
  obtain ⟨⟨server, as, exit⟩, hh⟩ : ∃ r, x.server.handle s frame = r := ⟨_, rfl⟩
  rw [hh] at hhandled
  rw [Service.read, hh]
  have hdue : (as.flatMap Action.errands ++ if exit.isSome then farewell server else []).filterMap
      Errand.frame? = as.filterMap Action.frame? := by
    rw [List.filterMap_append, filterMap_errands]
    split_ifs
    · rw [filterMap_farewell, List.append_nil]
    · exact List.append_nil _
  refine { h with isAt := ?_, agenda := ?_, answered := ?_, queue := ?_ }
  · change server.IsAt (stage (x.heard ++ [frame]))
    rw [stage_snoc]
    exact hhandled.isAt h.isAt
  · exact agenda_read h.isAt hopen.idle hopen.working hopen.spent hhandled (stage_snoc _ _)
      rfl rfl rfl rfl
  · change List.Forall₂ Answered (outcomes .waiting (x.heard ++ [frame])) _
    have hanswered := h.answered
    rw [Service.due, he, List.filterMap_nil, List.append_nil] at hanswered
    rw [outcomes_snoc, Service.due, hdue, List.filter_append]
    exact List.rel_append hanswered hhandled.answered
  · exact h.queue.keep (fun hp => hp.2.1 hn) rfl rfl

theorem Sound.cut (h : Sound x) (he : x.errands = []) (hn : x.ending = none)
    (how : Except Frame.Fault Exit) :
    Sound { x with errands := farewell x.server, ending := some how } := by
  have hopen : x.Open := by
    have hagenda := h.agenda
    rw [he] at hagenda
    exact hagenda.open_of_nil hn
  refine { h with agenda := ?_, answered := ?_, queue := ?_ }
  · exact agenda_farewell h.isAt hopen.idle hopen.working hopen.spent (Option.some_ne_none how)
  · have hanswered := h.answered
    rw [Service.due, he] at hanswered
    rw [Service.due, filterMap_farewell]
    exact hanswered
  · exact h.queue.keep (fun hp => hp.2.1 hn) rfl rfl

theorem Sound.answered_of_errands {e : Errand} (h : Sound x) (he : x.errands = e :: es)
    (hf : e.frame? = none) :
    List.Forall₂ Answered (outcomes .waiting x.heard)
      ((x.path ++ es.filterMap Errand.frame?).filter isResponse) := by
  have hanswered := h.answered
  rwa [Service.due, he, List.filterMap_cons_none hf] at hanswered

theorem Sound.launch {start : Launch} (h : Sound x) (he : x.errands = .launch start :: es) :
    Sound { x with errands := es, tenure := .called start } := by
  have hagenda := h.agenda
  rw [he] at hagenda
  cases hagenda with
  | welcoming hn hs hi =>
    refine { h with agenda := ?_, answered := ?_, carried := ?_, left := ?_, queue := ?_ }
    · have hquiet : .shutdown ∉ x.commands := by
        rw [hi.2]
        exact List.not_mem_nil
      exact .welcomed (.of_serving hn hs ⟨trivial, hquiet⟩) hs ⟨hi.2, _, _, .inl rfl⟩
    · exact h.answered_of_errands he rfl
    · have hcarried := h.carried
      rwa [hi.1] at hcarried
    · intro hended
      obtain ⟨⟨h', hover⟩, -⟩ := h.left hended
      rw [hi.1] at hover
      cases hover
    · exact h.queue.keep (Service.not_parted he) rfl rfl
  | commanding ho hs hall => exact absurd hall (not_commands fun _ => Errand.noConfusion)

theorem Sound.command {c : Command} (h : Sound x) (he : x.errands = .command c :: es) :
    Sound { x with errands := es, commands := x.commands ++ [c] } := by
  have hagenda := h.agenda
  rw [he] at hagenda
  refine { h with agenda := ?_, answered := ?_, queue := ?_ }
  · cases hagenda with
    | commanding ho hs hall =>
      obtain ⟨obeys, hquiet⟩ := ho.working hs
      obtain ⟨c', heq, hc⟩ := hall _ List.mem_cons_self
      obtain rfl := Errand.command.inj heq
      have hquiet' : .shutdown ∉ x.commands ++ [c] := by
        rw [List.mem_append, List.mem_singleton, not_or]
        exact ⟨hquiet, fun heq => hc heq.symm⟩
      exact .commanding (.of_serving ho.ending hs ⟨obeys, hquiet'⟩) hs
        fun e hmem => hall e (List.mem_cons_of_mem _ hmem)
    | stopping hl hw =>
      have hlast : x.tenure.Obeys ∧ ∃ cs,
          x.commands ++ [.shutdown] = cs ++ [.shutdown] ∧ .shutdown ∉ cs :=
        ⟨hw.1, x.commands, rfl, hw.2⟩
      cases hl with
      | response hn hs => exact .joining (.response hn hs) (.inl hlast)
      | dismissal hn => exact .joining (.dismissal hn) (.inl hlast)
  · exact h.answered_of_errands he rfl
  · exact h.queue.keep (Service.not_parted he) rfl rfl

theorem Sound.join {h' : History} (h : Sound x) (he : x.errands = .join :: es)
    (ht : x.tenure = .over h') (hc : x.carrier.ended = true) : Sound { x with errands := es } := by
  have hagenda := h.agenda
  rw [he] at hagenda
  have hspent : x.Stopping → x.Spent := by
    rintro (⟨hobeys, -⟩ | ⟨-, hcommands⟩)
    · rw [ht] at hobeys
      exact hobeys.elim
    · exact ⟨⟨h', ht⟩, hcommands, hc⟩
  refine { h with agenda := ?_, answered := ?_, queue := ?_ }
  · cases hagenda with
    | commanding ho hs hall => exact absurd hall (not_commands fun _ => Errand.noConfusion)
    | joining hl hstopping =>
      cases hl with
      | response hn hs => exact .answering hn hs (hspent hstopping)
      | dismissal hn => exact .dismissing hn (.inr (hspent hstopping))
  · exact h.answered_of_errands he rfl
  · exact h.queue.keep (Service.not_parted he) rfl rfl

theorem Sound.send (h : Sound x) (he : x.errands = .send frame :: es) :
    Sound { x with errands := es, outbox := x.outbox ++ [.frame frame] } := by
  have hagenda := h.agenda
  have hnews := hagenda.isNews
  rw [he] at hagenda hnews
  have hframe : isNews frame = false := hnews frame List.mem_cons_self
  have hpath : Service.path { x with errands := es, outbox := x.outbox ++ [.frame frame] } =
      x.path ++ [frame] := path_append x frame
  refine { h with agenda := ?_, answered := ?_, carried := ?_, queue := ?_ }
  · cases hagenda with
    | replying ho => exact .reading ⟨ho.ending, ho.idle, ho.working, ho.spent⟩
    | welcomed ho hs => exact .reading (.of_serving ho.ending hs (ho.working hs))
    | commanding ho hs hall => exact absurd hall (not_commands fun _ => Errand.noConfusion)
    | answering hn hs hp =>
      refine .reading ⟨hn, fun hw => ?_, fun hw => ?_, fun _ => hp⟩
      · rw [show stage x.heard = .waiting from hw] at hs
        cases hs
      · rw [show stage x.heard = .serving from hw] at hs
        cases hs
  · have hanswered := h.answered
    rw [Service.due, he] at hanswered
    rw [hpath, List.append_assoc]
    exact hanswered
  · obtain ⟨taken, hevents, hrelay⟩ := h.carried
    refine ⟨taken, hevents, ?_⟩
    rw [hpath, List.filter_append, List.filter_cons_of_neg (by rw [hframe]; decide),
      List.filter_nil, List.append_nil]
    exact hrelay
  · obtain ⟨frames, ho, hw⟩ := h.queue.put (Service.not_parted he)
    refine .taking (frames ++ [frame]) ?_ hw
    rw [List.map_append, ← ho]
    rfl

theorem Sound.dismiss (h : Sound x) (he : x.errands = .dismiss :: es) :
    Sound { x with errands := es, outbox := x.outbox ++ [.dismissal] } := by
  have hagenda := h.agenda
  rw [he] at hagenda
  have hpath : Service.path { x with errands := es, outbox := x.outbox ++ [.dismissal] } =
      x.path := path_dismiss x
  cases hagenda with
  | commanding ho hs hall => exact absurd hall (not_commands fun _ => Errand.noConfusion)
  | dismissing hn hs =>
    refine { h with agenda := ?_, answered := ?_, carried := ?_, queue := ?_ }
    · exact .dismissed hn hs
    · rw [hpath]
      exact h.answered_of_errands he rfl
    · rw [hpath]
      exact h.carried
    · obtain ⟨frames, ho, hw⟩ := h.queue.put (Service.not_parted he)
      exact .dismissed frames (by rw [ho]) hw ⟨rfl, hn, hs⟩

/-! ## The coordinator -/

theorem Sound.coordinate {t : Tenure} {commands : List Command} {events : List Event}
    (h : Sound x) (new : List Event) (hactive : x.tenure.IsActive)
    (hhistory : t.history.events = x.tenure.history.events ++ new)
    (hevents : events ++ t.untold = x.events ++ x.tenure.untold ++ new)
    (hworking : x.Working → Service.Working { x with tenure := t, commands, events })
    (hstopping : x.Stopping → Service.Stopping { x with tenure := t, commands, events })
    (hfresh : x.Fresh → Service.Fresh { x with tenure := t, commands, events }) :
    Sound { x with tenure := t, commands, events } := by
  have hover : ∀ h', x.tenure ≠ .over h' := by
    intro h' hover
    rwa [hover] at hactive
  have hidle : ¬ x.Idle := by
    rintro ⟨hvacant, -⟩
    rwa [hvacant] at hactive
  have hspent : ¬ x.Spent := by
    rintro ⟨⟨h', hs⟩, -⟩
    exact hover h' hs
  refine { h with agenda := ?_, carried := ?_, left := ?_, queue := ?_ }
  · exact h.agenda.mono rfl rfl (absurd · hidle) hworking hstopping (absurd · hspent) hfresh
  · obtain ⟨taken, htaken, hrelay⟩ := h.carried
    refine ⟨taken, ?_, hrelay⟩
    rw [hhistory, htaken, List.append_assoc, ← hevents]
  · intro hended
    obtain ⟨⟨h', hs⟩, -⟩ := h.left hended
    exact absurd hs (hover h')
  · refine h.queue.keep ?_ rfl rfl
    rintro ⟨-, -, hi | hs⟩
    · exact hidle hi
    · exact hspent hs

theorem history_launch (settings : Settings) (workspace : Workspace) :
    Launch.history { settings, workspace } = [.did (.emit (.status (.derive .good none)))] := rfl

theorem not_admits_launch {settings : Settings} {workspace : Workspace} {m : Message}
    (hm : (Launch.history { settings, workspace }).Admits m) : ∃ c, m = .command c := by
  cases m with
  | command c => exact ⟨c, rfl⟩
  | elapsed u t => cases hm
  | finished run result =>
    rw [history_launch, History.Admits, List.mem_singleton] at hm
    cases hm

theorem obeys_launched (start : Launch) (es : List Event) :
    Tenure.Obeys (.held start.coordinator start.history es) := by
  have hno : .heard (.command .shutdown) ∉ start.history :=
    Coordinator.shutdown_not_mem_takeUp _ _
  refine ⟨?_, hno⟩
  cases hs : start.coordinator.stopped with
  | false => rfl
  | true => exact absurd (Life.launched.shutdown_of_stopped hs) hno

theorem obeys_hearing {c : Coordinator} {h : History} {m : Message} {es : List Event}
    (ho : Tenure.Obeys (.held c h es)) (hm : h.Admits m) (hne : m ≠ .command .shutdown) :
    Tenure.Obeys (.hearing c h m) :=
  Coordinator.running_handle ho.1 ho.2 hm hne

theorem Sound.start {start : Launch} (h : Sound x) (ht : x.tenure = .called start) :
    Sound { x with tenure := .held start.coordinator start.history start.history.events } := by
  have hobeys := obeys_launched start start.history.events
  refine h.coordinate start.history.events ?_ ?_ ?_ ?_ ?_ ?_
  · rw [ht]
    trivial
  · rw [ht]
    rfl
  · rw [ht]
    exact congrArg (· ++ _) (List.append_nil _).symm
  · exact fun hw => ⟨hobeys, hw.2⟩
  · rintro (⟨-, hcommands⟩ | ⟨hstopped, -⟩)
    · exact .inl ⟨hobeys, hcommands⟩
    · rw [ht] at hstopped
      exact hstopped.elim
  · rintro ⟨hcommands, settings, workspace, hcalled | ⟨es, hheld⟩⟩
    · rw [ht] at hcalled
      obtain rfl := Tenure.called.inj hcalled
      exact ⟨hcommands, _, _, .inr ⟨_, rfl⟩⟩
    · rw [ht] at hheld
      cases hheld

theorem Sound.tell {c : Coordinator} {h' : History} {e : Event} {es : List Event} (h : Sound x)
    (ht : x.tenure = .held c h' (e :: es)) :
    Sound { x with tenure := .held c h' es, events := x.events ++ [e] } := by
  refine h.coordinate [] ?_ ?_ ?_ ?_ ?_ ?_
  · rw [ht]
    trivial
  · rw [ht]
    exact (List.append_nil _).symm
  · rw [ht, List.append_nil, List.append_assoc]
    rfl
  · intro hw
    rwa [Service.Working, ht] at hw
  · intro hs
    rwa [Service.Stopping, ht] at hs
  · rintro ⟨hcommands, settings, workspace, hcalled | ⟨es', hheld⟩⟩
    · rw [ht] at hcalled
      cases hcalled
    · rw [ht] at hheld
      obtain ⟨rfl, rfl, -⟩ := Tenure.held.inj hheld
      exact ⟨hcommands, _, _, .inr ⟨_, rfl⟩⟩

theorem Sound.hearing {c : Coordinator} {h' : History} {m : Message} {commands : List Command}
    (h : Sound x) (ht : x.tenure = .held c h' [])
    (hworking : x.Working → Service.Working { x with tenure := .hearing c h' m, commands })
    (hstopping : x.Stopping → Service.Stopping { x with tenure := .hearing c h' m, commands })
    (hfresh : x.Fresh → Service.Fresh { x with tenure := .hearing c h' m, commands }) :
    Sound { x with tenure := .hearing c h' m, commands } := by
  refine h.coordinate (History.events ((c.handle m).2.map .did)) ?_ ?_ ?_ hworking hstopping hfresh
  · rw [ht]
    trivial
  · rw [ht]
    exact List.filterMap_append
  · rw [ht]
    exact congrArg (· ++ _) (List.append_nil _).symm

theorem Sound.obey {c : Coordinator} {h' : History} {m : Command} {ms : List Command} (h : Sound x)
    (ht : x.tenure = .held c h' []) (hs : c.stopped = false) (hm : x.commands = m :: ms) :
    Sound { x with commands := ms, tenure := .hearing c h' (.command m) } := by
  have hobeys : x.tenure.Obeys → m ≠ .shutdown → Tenure.Obeys (.hearing c h' (.command m)) := by
    intro ho hne
    rw [ht] at ho
    exact obeys_hearing ho trivial fun heq => hne (Message.command.inj heq)
  refine h.hearing ht ?_ ?_ ?_
  · rintro ⟨ho, hquiet⟩
    rw [hm, List.mem_cons, not_or] at hquiet
    exact ⟨hobeys ho fun heq => hquiet.1 heq.symm, hquiet.2⟩
  · rintro (⟨ho, cs, hcommands, hquiet⟩ | ⟨-, hcommands⟩)
    · rw [hm] at hcommands
      cases cs with
      | nil =>
        -- this command is the last
        obtain ⟨rfl, rfl⟩ := List.cons.inj hcommands
        refine .inr ⟨?_, rfl⟩
        show (c.handle (.command .shutdown)).1.stopped = true
        rw [Coordinator.handle_of_running hs]
        rfl
      | cons m' cs =>
        obtain ⟨rfl, rfl⟩ := List.cons.inj hcommands
        rw [List.mem_cons, not_or] at hquiet
        exact .inl ⟨hobeys ho fun heq => hquiet.1 heq.symm, cs, rfl, hquiet.2⟩
    · rw [hm] at hcommands
      cases hcommands
  · rintro ⟨hcommands, -⟩
    rw [hm] at hcommands
    cases hcommands

theorem Sound.hear {c : Coordinator} {h' : History} {m : Message} (h : Sound x)
    (ht : x.tenure = .held c h' []) (hs : c.stopped = false) (hm : h'.Admits m)
    (hc : ∀ command, m ≠ .command command) :
    Sound { x with tenure := .hearing c h' m } := by
  have hobeys : x.tenure.Obeys → Tenure.Obeys (.hearing c h' m) := by
    intro ho
    rw [ht] at ho
    exact obeys_hearing ho hm (hc _)
  refine h.hearing ht ?_ ?_ ?_
  · exact fun hw => ⟨hobeys hw.1, hw.2⟩
  · rintro (⟨ho, hcommands⟩ | ⟨hstopped, -⟩)
    · exact .inl ⟨hobeys ho, hcommands⟩
    · rw [ht, Tenure.HasStopped, hs] at hstopped
      cases hstopped
  · rintro ⟨-, settings, workspace, hcalled | ⟨es, hheld⟩⟩
    · rw [ht] at hcalled
      cases hcalled
    · rw [ht] at hheld
      obtain ⟨-, rfl, -⟩ := Tenure.held.inj hheld
      obtain ⟨command, rfl⟩ := not_admits_launch hm
      exact absurd rfl (hc command)

theorem Sound.retire {c : Coordinator} {h' : History} (h : Sound x) (ht : x.tenure = .held c h' [])
    (hs : c.stopped = true) : Sound { x with tenure := .over h' } := by
  have hobeys : ¬ x.tenure.Obeys := by
    intro ho
    rw [ht, Tenure.Obeys, hs] at ho
    cases ho.1
  refine h.coordinate [] ?_ ?_ ?_ ?_ ?_ ?_
  · rw [ht]
    trivial
  · rw [ht]
    exact (List.append_nil _).symm
  · rw [ht]
    exact (List.append_nil _).symm
  · exact fun hw => absurd hw.1 hobeys
  · rintro (⟨ho, -⟩ | ⟨-, hcommands⟩)
    · exact absurd ho hobeys
    · exact .inr ⟨trivial, hcommands⟩
  · rintro ⟨-, settings, workspace, hcalled | ⟨es, hheld⟩⟩
    · rw [ht] at hcalled
      cases hcalled
    · rw [ht] at hheld
      obtain ⟨rfl, -⟩ := Tenure.held.inj hheld
      cases hs

/-! ## The carrier -/

theorem Sound.take {e : Event} {es : List Event} (h : Sound x) (hh : x.carrier.hand = none)
    (hc : x.carrier.ended = false) (he : x.events = e :: es) :
    Sound { x with
      events := es
      carrier := { x.carrier with
        number := countNotice x.carrier.number e
        hand := frameOf? x.carrier.number e } } := by
  have hsilent : ¬ x.Silent := by
    intro hs
    rw [(h.hand_of_silent hs).1] at he
    cases he
  refine { h with agenda := ?_, carried := ?_, left := ?_, queue := ?_ }
  · exact h.agenda.mono rfl rfl id id id id id
  · obtain ⟨taken, htaken, hrelay⟩ := h.carried
    refine ⟨taken ++ [e], ?_, ?_⟩
    · rw [List.append_assoc]
      rw [he] at htaken
      exact htaken
    · rw [relay_append, hrelay, hh]
      simp only [relay, Option.toList_none, List.append_nil]
      rfl
  · intro hended
    rw [show x.carrier.ended = true from hended] at hc
    cases hc
  · exact h.queue.keep (fun hp => hsilent hp.2.2) rfl rfl

theorem Sound.put (h : Sound x) (hh : x.carrier.hand = some frame) :
    Sound { x with
      carrier := { x.carrier with hand := none }
      outbox := x.outbox ++ [.frame frame] } := by
  -- the carrier has a frame, so the server task still waits and the writer is not dismissed
  have hsilent : ¬ x.Silent := by
    intro hs
    rw [(h.hand_of_silent hs).2] at hh
    cases hh
  obtain ⟨taken, htaken, hrelay⟩ := h.carried
  have hnews := h.isNews_hand hh
  have hpath : Service.path { x with
      carrier := { x.carrier with hand := none }
      outbox := x.outbox ++ [.frame frame] } = x.path ++ [frame] := path_append x frame
  refine { h with agenda := ?_, answered := ?_, carried := ?_, left := ?_, queue := ?_ }
  · exact h.agenda.mono rfl rfl id id id id id
  · have hanswered := h.answered
    rw [List.filter_append] at hanswered
    rw [hpath, List.filter_append, List.filter_append,
      List.filter_cons_of_neg (by rw [isResponse_of_isNews hnews]; decide), List.filter_nil,
      List.append_nil]
    exact hanswered
  · refine ⟨taken, htaken, ?_⟩
    rw [hpath, List.filter_append, List.filter_cons_of_pos hnews, hrelay, hh]
    simp
  · intro hended
    rw [(h.left hended).2.2] at hh
    cases hh
  · obtain ⟨frames, ho, hw⟩ := h.queue.put fun hp => hsilent hp.2.2
    refine .taking (frames ++ [frame]) ?_ hw
    rw [List.map_append, ← ho]
    rfl

theorem Sound.leave {h' : History} (h : Sound x) (hh : x.carrier.hand = none) (he : x.events = [])
    (ht : x.tenure = .over h') :
    Sound { x with carrier := { x.carrier with ended := true } } := by
  have hspent : x.Spent → Service.Spent { x with carrier := { x.carrier with ended := true } } :=
    fun hs => ⟨hs.1, hs.2.1, rfl⟩
  refine { h with agenda := ?_, left := ?_, queue := ?_ }
  · exact h.agenda.mono rfl rfl id id id hspent id
  · exact fun _ => ⟨⟨h', ht⟩, he, hh⟩
  · exact h.queue.mono (fun hp => ⟨hp.1, hp.2.1, hp.2.2.imp id hspent⟩) rfl rfl

/-! ## The writer -/

theorem Sound.fetch {out : List Outgoing} (h : Sound x) (hh : x.writer.hand = none)
    (ho : x.outbox = .frame frame :: out) :
    Sound { x with outbox := out, writer := { x.writer with hand := some frame } } := by
  have hpath : Service.path { x with
      outbox := out
      writer := { x.writer with hand := some frame } } = x.path := path_fetch hh ho
  refine { h with agenda := ?_, answered := ?_, carried := ?_, queue := ?_ }
  · exact h.agenda.mono rfl rfl id id id id id
  · rw [hpath]
    exact h.answered
  · rw [hpath]
    exact h.carried
  · cases h.queue with
    | taking frames ho' hw =>
      rw [ho] at ho'
      cases frames with
      | nil => cases ho'
      | cons f frames =>
        exact .taking frames (List.cons.inj ho').2 hw
    | dismissed frames ho' hw hp =>
      rw [ho] at ho'
      cases frames with
      | nil => cases ho'
      | cons f frames =>
        exact .dismissed frames (List.cons.inj ho').2 hw hp
    | closed ho' =>
      rw [ho] at ho'
      cases ho'

theorem Sound.write (h : Sound x) (hh : x.writer.hand = some frame) :
    Sound { x with
      writer := { x.writer with hand := none }
      written := x.written ++ [frame] } := by
  have hpath : Service.path { x with
      writer := { x.writer with hand := none }
      written := x.written ++ [frame] } = x.path := path_write hh
  refine { h with agenda := ?_, answered := ?_, carried := ?_, queue := ?_ }
  · exact h.agenda.mono rfl rfl id id id id id
  · rw [hpath]
    exact h.answered
  · rw [hpath]
    exact h.carried
  · cases h.queue with
    | taking frames ho hw => exact .taking frames ho hw
    | dismissed frames ho hw hp => exact .dismissed frames ho hw hp
    | closed ho hh' =>
      rw [hh'] at hh
      cases hh

theorem Sound.close {out : List Outgoing} (h : Sound x) (hh : x.writer.hand = none)
    (ho : x.outbox = .dismissal :: out) :
    Sound { x with outbox := out, writer := { x.writer with ended := true } } := by
  have hpath : Service.path { x with
      outbox := out
      writer := { x.writer with ended := true } } = x.path := path_close ho
  refine { h with agenda := ?_, answered := ?_, carried := ?_, queue := ?_, returned := ?_ }
  · exact h.agenda.mono rfl rfl id id id id id
  · rw [hpath]
    exact h.answered
  · rw [hpath]
    exact h.carried
  · cases h.queue with
    | taking frames ho' =>
      rw [ho] at ho'
      cases frames <;> cases ho'
    | dismissed frames ho' hw' hp =>
      -- the dismissal is the last in the outbox, so it is first only when no frame is before it
      rw [ho] at ho'
      cases frames with
      | nil =>
        exact .closed (List.cons.inj ho').2 hh rfl hp
      | cons f frames => cases ho'
    | closed ho' =>
      rw [ho] at ho'
      cases ho'
  · exact fun _ => rfl

/-! ## All tasks -/

theorem Sound.step {o : Origin} (h : Sound x) (hs : Step s o x y) : Sound y := by
  cases hs with
  | read frame he hn => exact h.read he hn frame
  | cut how he hn hh => exact h.cut he hn how
  | launch he => exact h.launch he
  | command he hr => exact h.command he
  | join he ht hc => exact h.join he ht hc
  | send he hr => exact h.send he
  | dismiss he hr => exact h.dismiss he
  | «return» he hn hw hr =>
    exact { h with
      agenda := h.agenda.mono rfl rfl id id id id id
      queue := h.queue.mono id rfl rfl
      returned := fun _ => hw }
  | start ht => exact h.start ht
  | tell ht => exact h.tell ht
  | obey ht hs hm => exact h.obey ht hs hm
  | hear ht hs hm hc => exact h.hear ht hs hm hc
  | retire ht hs => exact h.retire ht hs
  | take hh hc he => exact h.take hh hc he
  | put hh hr => exact h.put hh
  | leave hh hc he ht => exact h.leave hh he ht
  | fetch hh hw ho => exact h.fetch hh ho
  | write hh => exact h.write hh
  | close hh hw ho => exact h.close hh ho

theorem Serving.sound (hx : Serving s x) : Sound x := by
  induction hx with
  | begun =>
    have hopen : Service.Open {} :=
      ⟨rfl, fun _ => ⟨rfl, rfl⟩, fun hs => (by cases hs), fun hs => (by cases hs)⟩
    exact {
      isAt := rfl
      agenda := .reading hopen
      answered := .nil
      carried := ⟨[], rfl, rfl⟩
      left := fun hended => by cases hended
      queue := .taking [] rfl rfl
      returned := fun hreturned => by cases hreturned }
  | step hx hs ih => exact ih.step hs

end Server

end WorkflowLint

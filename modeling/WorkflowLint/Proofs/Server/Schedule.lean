import WorkflowLint.Proofs.Server.Soundness
import WorkflowLint.Proofs.Server.Discipline
/-!
# The schedule of a conversation

A conversation is one of the ways in which the tasks of a server can take turns: what the server
task sends is written at once, commands are obeyed at once, and the carrier waits until it is asked
for (`interleaved`). Between two things a conversation meets nothing is on its way, so the state of
the tasks is a `Calm` one; each thing it meets is a few steps from one calm state to another.
-/

namespace WorkflowLint

namespace Server

/-- What the tasks can do alone, step after step. -/
abbrev Steps (s : Surroundings) : Service → Service → Prop :=
  Relation.ReflTransGen (Step s .inside)

/-- A state of the tasks in which nothing is on its way. -/
structure Calm where
  server : Server
  heard : List Json
  ending : Option (Except Frame.Fault Exit)
  tenure : Tenure
  events : List Event
  /-- The number of requests the carrier made. -/
  number : Nat
  /-- Whether the carrier has ended. -/
  isOver : Bool
  written : List Json

/-- The tasks, with what the server task has still to do. -/
def Calm.service (k : Calm) (errands : List Errand) : Service where
  server := k.server
  heard := k.heard
  errands := errands
  ending := k.ending
  tenure := k.tenure
  events := k.events
  carrier := { number := k.number, ended := k.isOver }
  written := k.written

variable {s : Surroundings} {x y : Service} {k : Calm} {es : List Errand} {c : Coordinator}
  {h : History}

theorem Serving.steps (hx : Serving s x) (hs : Steps s x y) : Serving s y := by
  induction hs with
  | refl => exact hx
  | tail _ hs ih => exact ih.step hs

/-! ## From one calm state to another -/

theorem outbox_room : 0 < outboxRoom := by decide

theorem command_room : 0 < commandRoom := by decide

theorem steps_send (k : Calm) (frame : Json) :
    Steps s (k.service (.send frame :: es))
      (Calm.service { k with written := k.written ++ [frame] } es) :=
  .head (.send rfl outbox_room) (.head (.fetch rfl rfl rfl) (.single (.write rfl)))

theorem steps_tell (k : Calm) (told : List Event) :
    Steps s (Calm.service { k with tenure := .held c h told } es)
      (Calm.service { k with tenure := .held c h [], events := k.events ++ told } es) := by
  induction told generalizing k with
  | nil =>
    rw [List.append_nil]
  | cons e told ih =>
    have hrest := ih { k with events := k.events ++ [e] }
    rw [List.append_assoc] at hrest
    exact .head (.tell rfl) hrest

theorem steps_launch (k : Calm) (start : Launch) :
    Steps s (k.service (.launch start :: es))
      (Calm.service { k with
        tenure := .held start.coordinator start.history []
        events := k.events ++ start.history.events } es) :=
  .head (.launch rfl) (.head (.start rfl) (steps_tell k _))

theorem Serving.hear_calm {k : Calm} {m : Message}
    (hx : Serving s (Calm.service { k with tenure := .held c h [] } es)) (hs : c.stopped = false)
    (hm : h.Admits m) (hc : ∀ command, m ≠ .command command) :
    Serving s (Calm.service { k with
      tenure := .held (c.handle m).1 (h ++ .heard m :: (c.handle m).2.map .did) []
      events := k.events ++ History.events ((c.handle m).2.map .did) } es) :=
  (hx.step (.hear rfl hs hm hc)).steps (steps_tell k _)

theorem steps_command (k : Calm) (m : Command) (hs : c.stopped = false) :
    Steps s (Calm.service { k with tenure := .held c h [] } (.command m :: es))
      (Calm.service { k with
        tenure := .held (c.handle (.command m)).1
          (h ++ .heard (.command m) :: (c.handle (.command m)).2.map .did) []
        events := k.events ++ History.events ((c.handle (.command m)).2.map .did) } es) :=
  .head (.command rfl command_room) (.head (.obey rfl hs rfl) (steps_tell k _))

theorem steps_carry (k : Calm) (e : Event) (told : List Event) :
    Steps s (Calm.service { k with isOver := false, events := e :: told } es)
      (Calm.service { k with
        isOver := false
        events := told
        number := countNotice k.number e
        written := k.written ++ (frameOf? k.number e).toList } es) := by
  have htake : Step s .inside (Calm.service { k with isOver := false, events := e :: told } es)
      { Calm.service { k with isOver := false, events := told } es with
        carrier := {
          number := countNotice k.number e
          hand := frameOf? k.number e
          ended := false } } := .take rfl rfl rfl
  cases hf : frameOf? k.number e with
  | none =>
    rw [hf] at htake
    rw [Option.toList_none, List.append_nil]
    exact .single htake
  | some frame =>
    rw [hf] at htake
    exact .head htake (.head (.put rfl outbox_room) (.head (.fetch rfl rfl rfl)
      (.single (.write rfl))))

theorem steps_drain (k : Calm) (told : List Event) :
    Steps s (Calm.service { k with isOver := false, events := told } es)
      (Calm.service { k with
        isOver := false
        events := []
        number := (relay k.number told).2
        written := k.written ++ (relay k.number told).1 } es) := by
  induction told generalizing k with
  | nil =>
    rw [relay, List.append_nil]
  | cons e told ih =>
    have hrest := ih { k with
      number := countNotice k.number e
      written := k.written ++ (frameOf? k.number e).toList }
    rw [List.append_assoc] at hrest
    exact (steps_carry k e told).trans hrest

theorem steps_join (k : Calm) (hs : c.stopped = true) :
    Steps s (Calm.service { k with tenure := .held c h [], events := [], isOver := false }
        (.join :: es))
      (Calm.service { k with tenure := .over h, events := [], isOver := true } es) :=
  .head (.retire rfl hs) (.head (.leave rfl rfl rfl rfl) (.single (.join rfl rfl rfl)))

/-! ## Conversations -/

/-- The calm state that goes with a conversation. -/
def Calm.of (v : Conversation) (heard : List Json) (tenure : Tenure) (events : List Event)
    (isOver : Bool) : Calm where
  server := v.server
  heard := heard
  ending := v.ended
  tenure := tenure
  events := events
  number := v.notices
  isOver := isOver
  written := v.frames

/-- The tasks can come to where the conversation is, with its coordinator at work. -/
def AtWork (v : Conversation) (heard : List Json) (errands : List Errand) :
    Coordinator → History → List Event → Prop := fun c h told =>
  Tenure.Obeys (.held c h told) ∧
    Serving v.surroundings ((Calm.of v heard (.held c h []) told false).service errands)

/-- A coordinator has stopped and has nothing to tell. -/
def AtRest : Coordinator → History → List Event → Prop := fun c _ told =>
  c.stopped = true ∧ told = []

variable {v : Conversation} {heard : List Json} {errands : List Errand} {r : Rehearsal}
  {f : Rehearsal → Rehearsal}

theorem kept_atWork (v : Conversation) (heard : List Json) (errands : List Errand) :
    Rehearsal.Kept (AtWork v heard errands) := by
  rintro c h told m ⟨hobeys, hx⟩ hs hm hc
  refine ⟨obeys_hearing hobeys hm (hc _), ?_⟩
  exact Serving.hear_calm (k := Calm.of v heard .vacant told false) hx hs hm hc

theorem kept_atRest : Rehearsal.Kept AtRest := by
  rintro c h told m ⟨hstopped, -⟩ hs
  rw [hstopped] at hs
  cases hs

/-- Where a conversation is, the tasks can come to. -/
inductive Reflected (v : Conversation) : Prop
  | waiting {heard : List Json} (hv : v.server = {}) (he : v.ended = none)
      (hr : ∀ r ∈ v.rehearsal, r.Staged AtRest)
      (hx : Serving v.surroundings ((Calm.of v heard .vacant [] false).service []))
  | serving {heard : List Json} {session : Session} {r : Rehearsal}
      (hv : v.server = { session := some session }) (he : v.ended = none)
      (hr : v.rehearsal = some r) (hx : r.Staged (AtWork v heard []))
  | closing {heard : List Json} {h : History} (hv : v.server = { isShutDown := true })
      (he : v.ended = none) (hr : ∀ r ∈ v.rehearsal, r.Staged AtRest)
      (hx : Serving v.surroundings ((Calm.of v heard (.over h) [] true).service []))
  | ended (he : v.ended ≠ none) (hr : ∀ r ∈ v.rehearsal, r.Staged AtRest)
      (hx : ∃ x, Serving v.surroundings x ∧ x.written = v.frames ∧ x.hasReturned = true)

/-- The frames of what was told are written. -/
def Conversation.told (v : Conversation) (r : Rehearsal) : Conversation :=
  { v with
    frames := v.frames ++ (relay v.notices r.events.reverse).1
    notices := (relay v.notices r.events.reverse).2
    rehearsal := some { r with events := [] }
    queued := 0 }

theorem drain_of_some (hr : v.rehearsal = some r) : v.drain = v.told r := by
  rw [Conversation.drain, hr]
  rfl

theorem drain_play (hr : v.rehearsal = some r) : (v.play f).drain = v.told (f r) := by
  have hplay : (v.play f).rehearsal = some (f r) := by rw [Conversation.play, hr, Option.map_some]
  exact drain_of_some hplay

theorem staged_told (hx : r.Staged (AtWork v heard errands)) :
    Rehearsal.Staged (AtWork (v.told r) heard errands) { r with events := [] } := by
  obtain ⟨h, ⟨hobeys, hx⟩, hbacked⟩ := hx
  refine ⟨h, ⟨hobeys, ?_⟩, { hbacked with }⟩
  exact hx.steps (steps_drain (Calm.of v heard (.held r.coordinator h []) [] false) _)

theorem drain_of_atRest (hr : ∀ r ∈ v.rehearsal, r.Staged AtRest) :
    ∃ rehearsal, v.drain = { v with rehearsal, queued := 0 } ∧
      ∀ r ∈ rehearsal, r.Staged AtRest := by
  cases hv : v.rehearsal with
  | none =>
    refine ⟨none, ?_, fun r hr => by cases hr⟩
    rw [Conversation.drain, hv]
  | some r =>
    obtain ⟨h, ⟨hstopped, hnil⟩, hbacked⟩ := hr r hv
    refine ⟨some { r with events := [] }, ?_, ?_⟩
    · rw [drain_of_some hv, Conversation.told, hnil, relay, List.append_nil]
    · rintro r' hr'
      obtain rfl := Option.some.inj hr'
      exact ⟨h, ⟨hstopped, rfl⟩, { hbacked with }⟩

theorem atRest_play (hr : ∀ r ∈ v.rehearsal, r.Staged AtRest)
    (hf : ∀ r : Rehearsal, r.Staged AtRest → (f r).Staged AtRest) :
    ∀ r ∈ (v.play f).rehearsal, r.Staged AtRest := by
  intro r' hr'
  obtain ⟨r, hmem, rfl⟩ := Option.map_eq_some_iff.mp hr'
  exact hf r (hr r hmem)

theorem Reflected.elsewhere (hv : Reflected v)
    (hf : ∀ Q, Rehearsal.Kept Q → ∀ r : Rehearsal, r.Staged Q → (f r).Staged Q) :
    Reflected (v.play f).drain := by
  cases hv with
  | waiting hv he hr hx =>
    obtain ⟨rehearsal, heq, hr'⟩ := drain_of_atRest (atRest_play hr (hf _ kept_atRest))
    rw [heq]
    exact .waiting hv he hr' hx
  | serving hv he hr hx =>
    rw [drain_play hr]
    exact .serving hv he rfl (staged_told (hf _ (kept_atWork _ _ _) _ hx))
  | closing hv he hr hx =>
    obtain ⟨rehearsal, heq, hr'⟩ := drain_of_atRest (atRest_play hr (hf _ kept_atRest))
    rw [heq]
    exact .closing hv he hr' hx
  | ended he hr hx =>
    obtain ⟨rehearsal, heq, hr'⟩ := drain_of_atRest (atRest_play hr (hf _ kept_atRest))
    rw [heq]
    exact .ended he hr' hx

/-! ## Frames -/

theorem staged_imp {Q Q' : Coordinator → History → List Event → Prop}
    (hQ : ∀ c h told, Q c h told → Q' c h told) (hr : r.Staged Q) : r.Staged Q' := by
  obtain ⟨h, hq, hbacked⟩ := hr
  exact ⟨h, hQ _ _ _ hq, hbacked⟩

theorem Serving.read_calm {k : Calm} (hx : Serving s (k.service [])) (hk : k.ending = none)
    {frame : Json} {server : Server} {as : List Action} {exit : Option Exit}
    (hh : k.server.handle s frame = (server, as, exit)) :
    Serving s (Calm.service { k with
      server
      heard := k.heard ++ [frame]
      ending := exit.elim k.ending fun e => some (.ok e) }
      (as.flatMap Action.errands ++ if exit.isSome then farewell server else [])) := by
  have hread := hx.step (.read frame rfl hk)
  rw [Service.read, show (k.service []).server.handle s frame = _ from hh] at hread
  cases exit with
  | none =>
    rw [Option.elim_none, hk]
    exact hread
  | some e => exact hread

theorem staged_read (hx : r.Staged (AtWork v heard [])) (he : v.ended = none) {frame : Json}
    {server : Server} {as : List Action} {exit : Option Exit}
    (hh : v.server.handle v.surroundings frame = (server, as, exit)) :
    r.Staged (AtWork { v with
      server
      ended := exit.elim v.ended fun e => some (.ok e) } (heard ++ [frame])
      (as.flatMap Action.errands ++ if exit.isSome then farewell server else [])) :=
  staged_imp (fun _ _ _ hw => ⟨hw.1, hw.2.read_calm he hh⟩) hx

theorem staged_send {frame : Json} (hr : v.rehearsal = some r)
    (hx : r.Staged (AtWork v heard (.send frame :: errands))) :
    ∃ r', (v.send frame).rehearsal = some r' ∧
      Rehearsal.Staged (AtWork (v.send frame) heard errands) r' := by
  have hsent : ∀ {v : Conversation} {r : Rehearsal},
      r.Staged (AtWork v heard (.send frame :: errands)) → ∀ queued,
        r.Staged (AtWork { v with frames := v.frames ++ [frame], queued } heard errands) :=
    fun hx _ => staged_imp (fun _ _ _ hw => ⟨hw.1, hw.2.steps (steps_send _ frame)⟩) hx
  rw [Conversation.send]
  split
  · exact ⟨r, hr, hsent hx _⟩
  · -- the outbox is full: what the coordinator told is carried first
    rw [drain_of_some hr]
    exact ⟨_, rfl, hsent (staged_told hx) _⟩

theorem reflected_send {session : Session} {frame : Json}
    (hv : v.server = { session := some session }) (he : v.ended = none)
    (hr : v.rehearsal = some r) (hx : r.Staged (AtWork v heard [.send frame])) :
    Reflected (v.perform (.send frame)) := by
  obtain ⟨r', hr', hx'⟩ := staged_send hr hx
  have hserver := Conversation.server_perform v (.send frame)
  have hended := Conversation.ended_perform v (.send frame)
  exact .serving (hserver.trans hv) (hended.trans he) hr' hx'

theorem send_of_atRest (hr : ∀ r ∈ v.rehearsal, r.Staged AtRest) (frame : Json) :
    ∃ rehearsal queued, v.send frame =
        { v with frames := v.frames ++ [frame], rehearsal, queued } ∧
      ∀ r ∈ rehearsal, r.Staged AtRest := by
  rw [Conversation.send]
  split
  · exact ⟨v.rehearsal, _, rfl, hr⟩
  · obtain ⟨rehearsal, heq, hr'⟩ := drain_of_atRest hr
    rw [heq]
    exact ⟨rehearsal, _, rfl, hr'⟩

theorem reflected_send_waiting {frame : Json} (hv : v.server = {}) (he : v.ended = none)
    (hr : ∀ r ∈ v.rehearsal, r.Staged AtRest)
    (hx : Serving v.surroundings
      ((Calm.of v heard .vacant [] false).service [.send frame])) :
    Reflected (v.perform (.send frame)) := by
  obtain ⟨rehearsal, queued, heq, hr'⟩ := send_of_atRest hr frame
  rw [Conversation.perform, heq]
  exact .waiting hv he hr' (hx.steps (steps_send _ _))

theorem reflected_send_closing {frame : Json} (hv : v.server = { isShutDown := true })
    (he : v.ended = none) (hr : ∀ r ∈ v.rehearsal, r.Staged AtRest)
    (hx : Serving v.surroundings
      ((Calm.of v heard (.over h) [] true).service [.send frame])) :
    Reflected (v.perform (.send frame)) := by
  obtain ⟨rehearsal, queued, heq, hr'⟩ := send_of_atRest hr frame
  rw [Conversation.perform, heq]
  exact .closing hv he hr' (hx.steps (steps_send _ _))

theorem staged_launch {settings : Settings} {workspace : Workspace}
    (hx : Serving v.surroundings ((Calm.of v heard .vacant [] false).service
      (.launch { settings, workspace } :: errands))) :
    (Rehearsal.launch v.script settings workspace []).Staged (AtWork v heard errands) := by
  have hempty : Rehearsal.Backed
      { coordinator := Launch.coordinator { settings, workspace }, script := v.script } [] :=
    ⟨fun t ht => absurd ht List.not_mem_nil, fun run hrun => absurd hrun List.not_mem_nil,
      fun call hcall => absurd hcall List.not_mem_nil⟩
  obtain ⟨hbacked, hcoordinator, hevents⟩ :=
    hempty.foldl_perform (Coordinator.launch settings workspace []).2
  have hlaunched := hx.steps
    (steps_launch (Calm.of v heard .vacant [] false) { settings, workspace })
  have hplay : Rehearsal.Staged (AtWork v heard errands)
      ((Coordinator.launch settings workspace []).2.foldl Rehearsal.perform
        { coordinator := Launch.coordinator { settings, workspace }, script := v.script }) := by
    refine ⟨_, ⟨?_, ?_⟩, hbacked⟩
    · rw [hcoordinator]
      exact obeys_launched { settings, workspace } _
    · rw [hcoordinator, hevents]
      exact hlaunched
  exact hplay.settle (kept_atWork _ _ _)

theorem Serving.depart {k : Calm} (hx : Serving s (k.service [.dismiss])) {how}
    (hk : k.ending = some how) :
    ∃ x, Serving s x ∧ x.written = k.written ∧ x.hasReturned = true := by
  have hx := hx.step (.dismiss rfl outbox_room)
  have hx := hx.step (.close rfl rfl rfl)
  have hx := hx.step (.return rfl hk rfl rfl)
  exact ⟨_, hx, rfl, rfl⟩

theorem staged_command {m : Command} (hm : m ≠ .shutdown)
    (hx : r.Staged (AtWork v heard (.command m :: errands))) :
    (r.hear (.command m)).Staged (AtWork v heard errands) := by
  obtain ⟨h, hw, hbacked⟩ := hx
  obtain ⟨hbacked', hcoordinator, hevents⟩ := hbacked.hear (.command m)
  refine ⟨_, ⟨?_, ?_⟩, hbacked'⟩
  · rw [hcoordinator]
    exact obeys_hearing hw.1 trivial fun heq => hm (Message.command.inj heq)
  · rw [hcoordinator, hevents]
    exact hw.2.steps
      (steps_command (Calm.of v heard .vacant r.events.reverse false) m hw.1.1)

theorem errands_commands (cs : List Command) :
    (cs.map Action.command).flatMap Action.errands = cs.map .command := by
  induction cs with
  | nil => rfl
  | cons m cs ih => exact congrArg (Errand.command m :: ·) ih

theorem reflect_commands (hr : v.rehearsal = some r) {cs : List Command} (hcs : .shutdown ∉ cs)
    (hx : r.Staged (AtWork v heard (cs.map .command ++ errands))) :
    ∃ r' : Rehearsal, (cs.map Action.command).foldl Conversation.perform v =
        { v with rehearsal := some r' } ∧ r'.Staged (AtWork v heard errands) := by
  induction cs generalizing v r with
  | nil =>
    refine ⟨r, ?_, hx⟩
    rw [← hr]
    rfl
  | cons m cs ih =>
    rw [List.mem_cons, not_or] at hcs
    have hm := staged_command (fun heq => hcs.1 heq.symm) hx
    have hperform : v.perform (.command m) =
        { v with rehearsal := some (r.hear (.command m)) } := by
      rw [Conversation.perform, Conversation.play, hr]
      rfl
    obtain ⟨r', heq, hr'⟩ := ih (v := { v with rehearsal := _ }) rfl hcs.2 hm
    refine ⟨r', ?_, hr'⟩
    rw [List.map_cons, List.foldl_cons, hperform, heq]

theorem staged_stop (hx : r.Staged (AtWork v heard (.command .shutdown :: .join :: errands))) :
    Rehearsal.Staged AtRest { r.hear (.command .shutdown) with events := [] } ∧
      ∃ h', Serving v.surroundings
        ((Calm.of (v.told (r.hear (.command .shutdown))) heard (.over h') [] true).service
          errands) := by
  obtain ⟨h, hw, hbacked⟩ := hx
  obtain ⟨hbacked', hcoordinator, hevents⟩ := hbacked.hear (.command .shutdown)
  have hstopped : (r.hear (.command .shutdown)).coordinator.stopped = true := by
    rw [hcoordinator, Coordinator.handle_of_running hw.1.1]
    rfl
  have hx := hw.2.steps
    (steps_command (Calm.of v heard .vacant r.events.reverse false) .shutdown hw.1.1)
  generalize h ++ .heard (.command .shutdown) ::
    (r.coordinator.handle (.command .shutdown)).2.map .did = h' at hbacked' hx
  refine ⟨⟨h', ⟨hstopped, rfl⟩, { hbacked' with }⟩, h', ?_⟩
  have htold : Serving v.surroundings ((Calm.of v heard
      (.held (r.hear (.command .shutdown)).coordinator h' [])
      (r.hear (.command .shutdown)).events.reverse false).service (.join :: errands)) := by
    rw [hcoordinator, hevents]
    exact hx
  have hwritten := htold.steps (steps_drain (Calm.of v heard (.held _ h' []) [] false) _)
  exact hwritten.steps (steps_join
    (Calm.of (v.told (r.hear (.command .shutdown))) heard .vacant [] false) hstopped)

/-! ## The end -/

theorem farewell_of_none (server : Server) (hs : server.session = none) :
    farewell server = [.dismiss] := by
  rw [farewell, hs]
  rfl

theorem farewell_of_some (server : Server) {session : Session}
    (hs : server.session = some session) :
    farewell server = [.command .shutdown, .join, .dismiss] := by
  rw [farewell, hs]
  rfl

variable {how : Except Frame.Fault Exit} {tenure : Tenure} {isOver : Bool}

theorem reflected_finish_idle (hs : v.server.session = none)
    (hr : ∀ r ∈ v.rehearsal, r.Staged AtRest)
    (hx : Serving v.surroundings
      ((Calm.of { v with ended := some how } heard tenure [] isOver).service
        (farewell v.server))) :
    Reflected (v.finish how) := by
  rw [farewell_of_none v.server hs] at hx
  have hfinish : v.finish how = { v with ended := some how } := by
    rw [Conversation.finish, hs]
    rfl
  rw [hfinish]
  exact .ended (Option.some_ne_none how) hr (hx.depart rfl)

theorem reflected_finish {session : Session} (hs : v.server.session = some session)
    (hr : v.rehearsal = some r)
    (hx : r.Staged (AtWork { v with ended := some how } heard (farewell v.server))) :
    Reflected (v.finish how) := by
  rw [farewell_of_some v.server hs] at hx
  have hfinish : v.finish how =
      { v.told (r.hear (.command .shutdown)) with ended := some how } := by
    rw [Conversation.finish, hs, Conversation.perform, drain_play hr]
    rfl
  obtain ⟨hrest, h, hx⟩ := staged_stop hx
  rw [hfinish]
  refine .ended (Option.some_ne_none how) (fun r' hr' => ?_) (hx.depart rfl)
  obtain rfl := Option.some.inj hr'
  exact hrest

/-! ## What a conversation meets -/

theorem Reflected.receive (hv : Reflected v) (frame : Json) :
    Reflected (v.receive (.ok frame)) := by
  obtain ⟨⟨server, as, exit⟩, hh⟩ : ∃ r, v.server.handle v.surroundings frame = r := ⟨_, rfl⟩
  cases hv with
  | ended he hr hx =>
    rw [Conversation.receive_of_ended he]
    exact .ended he hr hx
  | waiting hv he hr hx =>
    have hat : v.server.IsAt .waiting := hv
    have hhandled := handled (s := v.surroundings) hat frame
    have hread := hx.read_calm he hh
    rw [Conversation.receive_of_handle he frame hh]
    rw [hh] at hhandled
    cases hhandled with
    | refused hq ho => exact reflected_send_waiting hv he hr hread
    | welcomed hq hm hp => exact reflected_send rfl he rfl (staged_launch hread)
    | ignored hq => exact .waiting hv he hr hread
    | shown hq hm => exact reflected_send_waiting hv he hr hread
    | left hexit =>
      have hs : v.server.session = none := by rw [hv]
      exact reflected_finish_idle hs hr hread
  | @serving _ session r hv he hr hx =>
    have hat : v.server.IsAt .serving := ⟨session, hv⟩
    have hhandled := handled (s := v.surroundings) hat frame
    have hread := staged_read hx he hh
    rw [Conversation.receive_of_handle he frame hh]
    rw [hh] at hhandled
    cases hhandled with
    | refused hq ho => exact reflected_send hv he hr hread
    | dismissed hq hm =>
      -- the server task is to join the two others, so all they have is written first
      obtain ⟨hrest, h, hx⟩ := staged_stop hread
      have hstop : Conversation.perform { v with server := { isShutDown := true } } .stop =
          Conversation.told { v with server := { isShutDown := true } }
            (r.hear (.command .shutdown)) := drain_play hr
      rw [Option.elim_none, List.foldl_cons, hstop]
      refine reflected_send_closing rfl he (fun r' hr' => ?_) hx
      obtain rfl := Option.some.inj hr'
      exact hrest
    | @told m session cs hn hm hcs =>
      rw [errands_commands] at hread
      obtain ⟨r', heq, hr'⟩ := reflect_commands
        (v := { v with server := { session := some session } }) hr hcs hread
      rw [Option.elim_none, heq]
      exact .serving rfl he rfl hr'
    | ignored hq => exact .serving hv he hr hread
    | shown hq hm => exact reflected_send hv he hr hread
    | left hexit =>
      have hs : v.server.session = some session := by rw [hv]
      exact reflected_finish hs hr hread
  | closing hv he hr hx =>
    have hat : v.server.IsAt .closing := hv
    have hhandled := handled (s := v.surroundings) hat frame
    have hread := hx.read_calm he hh
    rw [Conversation.receive_of_handle he frame hh]
    rw [hh] at hhandled
    cases hhandled with
    | refused hq ho => exact reflected_send_closing hv he hr hread
    | ignored hq => exact .closing hv he hr hread
    | shown hq hm => exact reflected_send_closing hv he hr hread
    | left hexit =>
      have hs : v.server.session = none := by rw [hv]
      exact reflected_finish_idle hs hr hread

theorem Reflected.cut (hv : Reflected v) (he : v.ended = none) (hh : how ≠ .ok .clean) :
    Reflected (v.finish how) := by
  cases hv with
  | ended he' => exact absurd he he'
  | waiting hv _ hr hx =>
    have hs : v.server.session = none := by rw [hv]
    exact reflected_finish_idle hs hr (hx.step (.cut how rfl he hh))
  | @serving heard session r hv _ hr hx =>
    have hs : v.server.session = some session := by rw [hv]
    have hcut : r.Staged (AtWork { v with ended := some how } heard (farewell v.server)) :=
      staged_imp (fun _ _ _ hw => ⟨hw.1, hw.2.step (.cut how rfl he hh)⟩) hx
    exact reflected_finish hs hr hcut
  | closing hv _ hr hx =>
    have hs : v.server.session = none := by rw [hv]
    exact reflected_finish_idle hs hr (hx.step (.cut how rfl he hh))

theorem Reflected.unread (hv : Reflected v) (bytes : List UInt8) :
    Reflected { v with unread := bytes } := by
  cases hv with
  | waiting hv he hr hx => exact .waiting hv he hr hx
  | serving hv he hr hx => exact .serving hv he hr hx
  | closing hv he hr hx => exact .closing hv he hr hx
  | ended he hr hx => exact .ended he hr hx

theorem Reflected.foldl_receive (hv : Reflected v)
    (bodies : List (Except Json.SyntaxError Json)) :
    Reflected (bodies.foldl Conversation.receive v) := by
  refine List.foldlRecOn bodies _ hv fun v hv body _ => ?_
  cases body with
  | ok frame => exact hv.receive frame
  | error e =>
    rw [Conversation.receive]
    · exact hv
    · exact fun _ _ hbody => by cases hbody

theorem Reflected.read (hv : Reflected v) (closed : Bool) : Reflected (v.read closed) := by
  rw [Conversation.read]
  split
  · exact hv
  · have hread := hv.foldl_receive (Frame.readAll closed v.unread).1
    simp only
    split
    · exact hread
    · rename_i hended
      have he := Option.not_isSome_iff_eq_none.mp hended
      split
      · exact hread.unread _
      · exact hread.cut he (by simp)
      · exact hread.cut he (by simp)

/-- What comes to a server from outside. -/
inductive Arrival where
  | bytes (bytes : List UInt8)
  /-- No more bytes come in. -/
  | close
  | time (delay : Nat)
  /-- A call of the tool is answered. -/
  | reply (number : Nat) (result : RunEnd)

def Conversation.undergo (v : Conversation) : Arrival → Conversation
  | .bytes bytes => v.feed bytes
  | .close => v.close
  | .time delay => v.advance delay
  | .reply number result => v.answer number result

theorem Reflected.undergo (hv : Reflected v) (a : Arrival) : Reflected (v.undergo a) := by
  cases a with
  | bytes bytes =>
    exact ((hv.unread _).read false).elsewhere fun Q hQ r hr => hr.settle hQ
  | close => exact (hv.read true).elsewhere fun Q hQ r hr => hr.settle hQ
  | time delay => exact hv.elsewhere fun Q hQ r hr => hr.advance hQ delay
  | reply number result => exact hv.elsewhere fun Q hQ r hr => hr.answer hQ number result

theorem Reflected.written (hv : Reflected v) :
    ∃ x, Serving v.surroundings x ∧ x.written = v.frames ∧ x.hasReturned = v.ended.isSome := by
  cases hv with
  | waiting _ he _ hx => exact ⟨_, hx, rfl, by rw [he]; rfl⟩
  | serving _ he _ hx =>
    obtain ⟨h, ⟨-, hx⟩, -⟩ := hx
    exact ⟨_, hx, rfl, by rw [he]; rfl⟩
  | closing _ he _ hx => exact ⟨_, hx, rfl, by rw [he]; rfl⟩
  | ended he _ hx =>
    rw [Option.isSome_iff_ne_none.mpr he]
    exact hx

/-! ## Surroundings stay -/

theorem surroundings_drain (v : Conversation) : v.drain.surroundings = v.surroundings := by
  rw [Conversation.drain]
  split <;> rfl

theorem surroundings_perform (v : Conversation) (a : Action) :
    (v.perform a).surroundings = v.surroundings := by
  cases a with
  | launch => rfl
  | command => rfl
  | stop => exact surroundings_drain (v.play _)
  | send frame =>
    rw [Conversation.perform, Conversation.send]
    split
    · rfl
    · exact surroundings_drain v

theorem surroundings_foldl_perform (v : Conversation) (as : List Action) :
    (as.foldl Conversation.perform v).surroundings = v.surroundings := by
  induction as generalizing v with
  | nil => rfl
  | cons a as ih => exact (ih (v.perform a)).trans (surroundings_perform v a)

theorem surroundings_finish (v : Conversation) (how : Except Frame.Fault Exit) :
    (v.finish how).surroundings = v.surroundings := by
  rw [Conversation.finish]
  split
  · exact surroundings_perform v .stop
  · rfl

theorem surroundings_receive (v : Conversation) (body : Except Json.SyntaxError Json) :
    (v.receive body).surroundings = v.surroundings := by
  unfold Conversation.receive
  split
  · split
    rename_i exit _
    cases exit with
    | none => exact surroundings_foldl_perform _ _
    | some e => exact (surroundings_finish _ _).trans (surroundings_foldl_perform _ _)
  · rfl

theorem surroundings_foldl_receive (v : Conversation)
    (bodies : List (Except Json.SyntaxError Json)) :
    (bodies.foldl Conversation.receive v).surroundings = v.surroundings := by
  induction bodies generalizing v with
  | nil => rfl
  | cons body bodies ih => exact (ih (v.receive body)).trans (surroundings_receive v body)

theorem surroundings_read (v : Conversation) (closed : Bool) :
    (v.read closed).surroundings = v.surroundings := by
  have hreceived := surroundings_foldl_receive v (Frame.readAll closed v.unread).1
  rw [Conversation.read]
  split
  · rfl
  · simp only
    split
    · exact hreceived
    · split
      · exact hreceived
      · exact (surroundings_finish _ _).trans hreceived
      · exact (surroundings_finish _ _).trans hreceived

theorem surroundings_undergo (v : Conversation) (a : Arrival) :
    (v.undergo a).surroundings = v.surroundings := by
  cases a with
  | bytes bytes => exact (surroundings_drain _).trans (surroundings_read _ false)
  | close => exact (surroundings_drain _).trans (surroundings_read _ true)
  | time delay => exact surroundings_drain _
  | reply number result => exact surroundings_drain _

/-- Whatever comes to a conversation, there is a way for the tasks of its server to take turns in
which they write the frames that it sent, and serving is over if it has ended. -/
theorem interleaved (s : Surroundings) (script : List RunEnd) (as : List Arrival) :
    let v := as.foldl Conversation.undergo { surroundings := s, script }
    ∃ x, Serving s x ∧ x.written = v.frames ∧ x.hasReturned = v.ended.isSome := by
  have hgo : ∀ v : Conversation, v.surroundings = s → Reflected v →
      (as.foldl Conversation.undergo v).surroundings = s ∧
        Reflected (as.foldl Conversation.undergo v) := by
    induction as with
    | nil => exact fun v hs hv => ⟨hs, hv⟩
    | cons a as ih =>
      intro v hs hv
      exact ih (v.undergo a) ((surroundings_undergo v a).trans hs) (hv.undergo a)
  have hbegun : Reflected { surroundings := s, script } :=
    .waiting rfl rfl (fun r hr => by cases hr) .begun
  obtain ⟨hs, hv⟩ := hgo _ rfl hbegun
  obtain ⟨x, hx, hwritten⟩ := hv.written
  rw [hs] at hx
  exact ⟨x, hx, hwritten⟩

end Server

end WorkflowLint

import WorkflowLint.Proofs.Server.Delivery
import WorkflowLint.Proofs.Server.Discipline
/-!
# What comes before the response to `initialize`

The coordinator is launched before the response to `initialize` is sent, and it tells the status at
once; when the carrier is quick, that frame is ahead of the response (`status_first`), and it is so
when the server has filled the outbox and has to wait (`receive_of_full`). It is the only one that
can be: until the response is sent the server reads nothing, so the coordinator has nothing to obey
and no run to hear of (`greeted`).
-/

namespace WorkflowLint

namespace Server

/-- The frame of the status a coordinator tells at its start. -/
def firstStatus : Json := notification "flowlint/status" (some (statusParams .idle))

/-- A carrier that is quick puts the status in the outbox before the server puts the response. -/
theorem exists_quick :
    ∃ x, Serving {} x ∧ x.written = [firstStatus, response (Json.nat 1) (.ok abilities)] ∧
      x.path = [firstStatus] ++ response (Json.nat 1) (.ok abilities) :: [] := by
  have h : Serving {} _ := .step .begun (.read (request 1 "initialize") rfl rfl)
  have h := h.step (.launch rfl)
  have h := h.step (.start rfl)
  have h := h.step (.tell rfl)
  have h := h.step (.take rfl rfl rfl)
  have h := h.step (.put rfl (by decide))
  have h := h.step (.send rfl (by decide))
  have h := h.step (.fetch rfl rfl rfl)
  have h := h.step (.write rfl)
  have h := h.step (.fetch rfl rfl rfl)
  have h := h.step (.write rfl)
  exact ⟨_, h, rfl, rfl⟩

/-- The status can come before the response to `initialize`. -/
theorem status_first :
    ∃ x, Serving {} x ∧ x.written = [firstStatus, response (Json.nat 1) (.ok abilities)] := by
  obtain ⟨x, hx, hwritten, -⟩ := exists_quick
  exact ⟨x, hx, hwritten⟩

/-- When the outbox is full, the status comes before the response to `initialize`. -/
theorem receive_of_full {c : Conversation} {frame : Json} {q : Query} {p : InitializeParams}
    (he : c.ended = none) (hc : c.server = {}) (hfull : outboxRoom ≤ c.queued)
    (hq : query? frame = some q) (hm : q.method = "initialize")
    (hp : InitializeParams.read q.params = .ok p) :
    (c.receive (.ok frame)).frames =
      c.frames ++ [firstStatus, response q.id (.ok abilities)] := by
  have hh : c.server.handle c.surroundings frame =
      ({ session := some (Session.begin c.surroundings p) },
        [.launch ((Session.begin c.surroundings p).settings c.surroundings)
            (Session.begin c.surroundings p).workspace,
          .send (response q.id (.ok abilities))], none) := by
    rw [hc, handle, ofFrame?_request hq]
    simp [answer, hm, hp]
  have hwait : ¬ c.queued < outboxRoom := Nat.not_lt.mpr hfull
  rw [Conversation.receive_of_handle he frame hh, Option.elim_none, List.foldl_cons,
    List.foldl_cons, List.foldl_nil, Conversation.perform, Conversation.perform,
    Conversation.send, if_neg hwait]
  exact List.append_assoc _ [firstStatus] [response q.id (.ok abilities)]

variable {s : Surroundings} {x : Service} {es : List Errand} {id : Json} {pre post : List Json}

theorem Sound.fresh_of_send (h : Sound x)
    (he : x.errands = .send (response id (.ok abilities)) :: es) : x.Fresh := by
  have hagenda := h.agenda
  rw [he] at hagenda
  cases hagenda with
  | replying ho hf hv => exact absurd rfl (hv id abilities)
  | welcomed ho hs hf => exact hf
  | commanding ho hs hall => exact absurd hall (not_commands fun _ => Errand.noConfusion)

theorem Service.Fresh.told (hf : x.Fresh) : x.told = [] ∨ x.told = [.status .idle] := by
  obtain ⟨-, settings, workspace, hcalled | ⟨es, hheld⟩⟩ := hf
  · rw [Service.told, hcalled]
    exact .inl rfl
  · rw [Service.told, hheld]
    exact .inr rfl

/-- Of what the coordinator tells only the status at its start comes before the response to
`initialize`. -/
theorem greeted (hx : Serving s x) (hpath : x.path = pre ++ response id (.ok abilities) :: post) :
    pre.filter isNews = [] ∨ pre.filter isNews = [firstStatus] := by
  induction hx generalizing pre post with
  | begun => cases pre <;> cases hpath
  | @step _ x y hx hs ih =>
    have hsound := hx.sound
    obtain hsame | ⟨frame, ⟨es, he⟩, hsent⟩ | ⟨frame, hh, hput⟩ := hs.path
    · rw [hsame] at hpath
      exact ih hpath
    · rw [hsent] at hpath
      obtain ⟨post', hpath', -⟩ | ⟨rfl, rfl, -⟩ := eq_append_of_concat hpath
      · exact ih hpath'
      · -- the server task has read nothing since the launch, so the coordinator heard nothing
        have htold := hsound.isPrefix_path
        obtain hnone | hstatus := (hsound.fresh_of_send he).told
        · rw [hnone] at htold
          exact .inl (List.prefix_nil.mp htold)
        · rw [hstatus] at htold
          obtain hnil | ⟨rest, hrest, hle⟩ := List.prefix_cons_iff.mp htold
          · exact .inl hnil
          · rw [List.prefix_nil.mp hle] at hrest
            exact .inr hrest
    · rw [hput] at hpath
      obtain ⟨post', hpath', -⟩ | ⟨-, rfl, -⟩ := eq_append_of_concat hpath
      · exact ih hpath'
      · have hresponse := isNews_of_isResponse (answers_result id abilities).isResponse
        rw [hsound.isNews_hand hh] at hresponse
        cases hresponse

/-- With a quick carrier the status is ahead of the response, and nothing else is. -/
theorem greeted_of_quick :
    ∃ x, Serving {} x ∧ x.path = [firstStatus] ++ response (Json.nat 1) (.ok abilities) :: [] ∧
      ([firstStatus].filter isNews = [] ∨ [firstStatus].filter isNews = [firstStatus]) := by
  obtain ⟨x, hx, -, hpath⟩ := exists_quick
  exact ⟨x, hx, hpath, greeted hx hpath⟩

end Server

end WorkflowLint

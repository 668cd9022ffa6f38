import WorkflowLint.Proofs.Server.Progress
/-!
# What the coordinator tells reaches the editor

The frames about what the coordinator told are those `relay` makes of it, in its order, as far as
they were written, and all of them are once the tasks are left alone. The response to `shutdown` is
sent only when nothing is told any more and all of it is on the path, and the writer is dismissed
only then, so nothing is left behind (`delivered`).
-/

namespace WorkflowLint

namespace Server

variable {s : Surroundings} {x y : Service} {es : List Errand}

/-! ## The last response -/

theorem Step.spent {o : Origin} (h : Sound x) (hs : Step s o x y) (hx : x.Spent) : y.Spent := by
  obtain ⟨⟨h', hover⟩, hcommands, hended⟩ := hx
  have hworking : ¬ x.Working := by
    rintro ⟨hobeys, -⟩
    rw [hover] at hobeys
    exact hobeys.elim
  cases hs with
  | launch he =>
    have hagenda := h.agenda
    rw [he] at hagenda
    cases hagenda with
    | welcoming hn hs hi =>
      rw [hi.1] at hover
      cases hover
    | commanding ho hs => exact absurd (ho.working hs) hworking
  | command he =>
    have hagenda := h.agenda
    rw [he] at hagenda
    cases hagenda with
    | commanding ho hs => exact absurd (ho.working hs) hworking
    | stopping hl hw => exact absurd hw hworking
  | start ht | tell ht | obey ht | hear ht | retire ht =>
    rw [ht] at hover
    cases hover
  | read | cut | join | send | dismiss | «return» => exact ⟨⟨h', hover⟩, hcommands, hended⟩
  | take | put | fetch | write | close => exact ⟨⟨h', hover⟩, hcommands, hended⟩
  | leave => exact ⟨⟨h', hover⟩, hcommands, rfl⟩

theorem Sound.spent_of_send (h : Sound x) {id : Json}
    (he : x.errands = .send (response id (.ok .null)) :: es) : x.Spent := by
  have hagenda := h.agenda
  rw [he] at hagenda
  cases hagenda with
  | replying ho hf hv => exact absurd rfl (hv id .null)
  | commanding ho hs hall => exact absurd hall (not_commands fun _ => Errand.noConfusion)
  | answering hn hs hp => exact hp

/-- When the response to `shutdown` is on the path, nothing that was told comes after it or is still
to come. -/
theorem Serving.spent (hx : Serving s x) {pre post : List Json} {id : Json}
    (hpath : x.path = pre ++ response id (.ok .null) :: post) :
    x.Spent ∧ post.filter isNews = [] := by
  -- the path grows at its end, so what was on it stays where it was
  induction hx generalizing pre post with
  | begun => cases pre <;> cases hpath
  | @step _ x y hx hs ih =>
    have hsound := hx.sound
    obtain hsame | ⟨frame, ⟨es, he⟩, hsent⟩ | ⟨frame, hh, hput⟩ := hs.path
    · rw [hsame] at hpath
      obtain ⟨hspent, hpost⟩ := ih hpath
      exact ⟨hs.spent hsound hspent, hpost⟩
    · rw [hsent] at hpath
      obtain ⟨post', hpath', rfl⟩ | ⟨rfl, rfl, rfl⟩ := eq_append_of_concat hpath
      · obtain ⟨hspent, hpost⟩ := ih hpath'
        refine ⟨hs.spent hsound hspent, ?_⟩
        have hframe : isNews frame = false :=
          hsound.agenda.isNews frame (by rw [he]; exact List.mem_cons_self)
        rw [List.filter_append, hpost, List.filter_cons_of_neg (by rw [hframe]; decide)]
        rfl
      · exact ⟨hs.spent hsound (hsound.spent_of_send he), rfl⟩
    · rw [hput] at hpath
      obtain ⟨post', hpath', rfl⟩ | ⟨rfl, rfl, rfl⟩ := eq_append_of_concat hpath
      · -- the carrier has left, so it has no frame to put
        obtain ⟨hspent, -⟩ := ih hpath'
        rw [(hsound.hand_of_silent (.inr hspent)).2] at hh
        cases hh
      · have hresponse := isNews_of_isResponse (answers_result id .null).isResponse
        rw [hsound.isNews_hand hh] at hresponse
        cases hresponse

/-! ## Delivery -/

/-- All the coordinator told or is about to tell. -/
def Service.told (x : Service) : List Event := x.tenure.history.events

theorem Sound.filter_path (h : Sound x) (hevents : x.events = []) (hhand : x.carrier.hand = none)
    (huntold : x.tenure.untold = []) : x.path.filter isNews = (relay 0 x.told).1 := by
  obtain ⟨taken, htaken, hrelay⟩ := h.carried
  rw [hevents, huntold, List.append_nil, List.append_nil] at htaken
  rw [Service.told, htaken, hrelay, hhand, Option.toList_none, List.append_nil]

theorem Sound.filter_path_of_silent (h : Sound x) (hs : x.Silent) :
    x.path.filter isNews = (relay 0 x.told).1 := by
  obtain ⟨hevents, hhand⟩ := h.hand_of_silent hs
  have huntold : x.tenure.untold = [] := by
    obtain hi | ⟨⟨h', hover⟩, -⟩ := hs
    · rw [hi.1]
      rfl
    · rw [hover]
      rfl
  exact h.filter_path hevents hhand huntold

theorem Sound.isPrefix_path (h : Sound x) : x.path.filter isNews <+: (relay 0 x.told).1 := by
  obtain ⟨taken, htaken, hrelay⟩ := h.carried
  rw [Service.told, htaken, relay_append, hrelay, List.append_assoc]
  exact List.prefix_append _ _

theorem isPrefix_written (x : Service) : x.written <+: x.path := by
  rw [Service.path, List.append_assoc]
  exact List.prefix_append _ _

theorem Sound.path_of_returned (h : Sound x) (hr : x.hasReturned = true) :
    x.Silent ∧ x.path = x.written := by
  have hended := h.returned hr
  cases h.queue with
  | taking frames ho hw =>
    rw [hended] at hw
    cases hw
  | dismissed frames ho hw =>
    rw [hended] at hw
    cases hw
  | closed ho hh hw hp =>
    refine ⟨hp.2.2, ?_⟩
    rw [Service.path, ho, hh, Option.toList_none, List.append_nil, List.filterMap_nil,
      List.append_nil]

theorem Service.IsStill.path (hx : x.IsStill s) (h : Sound x) : x.path = x.written := by
  rw [Service.path, hx.outbox h, hx.writer, Option.toList_none, List.append_nil,
    List.filterMap_nil, List.append_nil]

theorem nodup_appeals_of_isPrefix {frames : List Json} {number : Nat} {told : List Event}
    (h : frames.filter isNews <+: (relay number told).1) :
    ((frames.filter isAppeal).map (Json.get? "id")).Nodup := by
  have happeals : frames.filter isAppeal = (frames.filter isNews).filter isAppeal := by
    rw [List.filter_filter]
    refine List.filter_congr fun frame _ => ?_
    cases ha : isAppeal frame with
    | false => rfl
    | true => rw [isNews_of_isAppeal ha]; rfl
  rw [happeals]
  exact (nodup_appeals number told).sublist ((h.sublist.filter isAppeal).map _)

/-- What was written about what the coordinator told is what `relay` makes of it, as far as it got;
no two requests to the user share an identifier; all of it comes before the response to `shutdown`;
and nothing is left when serving is over, however it ended, or when the tasks are left alone until
they come to rest. -/
theorem delivered (hx : Serving s x) :
    x.written.filter isNews <+: (relay 0 x.told).1 ∧
      ((x.written.filter isAppeal).map (Json.get? "id")).Nodup ∧
      (∀ pre id post, x.written = pre ++ response id (.ok .null) :: post →
        pre.filter isNews = (relay 0 x.told).1 ∧ post.filter isNews = []) ∧
      (x.hasReturned = true ∨ x.IsStill s →
        x.written.filter isNews = (relay 0 x.told).1 ∧
          List.Forall₂ Carries (x.told.filter fun e => !e.isSettled) (x.written.filter isNews)) ∧
      (x.IsStill s → x.ending ≠ none → x.hasReturned = true) ∧
      Acc (fun z y => Step s .inside y z) x := by
  have hsound := hx.sound
  have htold : x.written.filter isNews <+: (relay 0 x.told).1 :=
    ((isPrefix_written x).filter isNews).trans hsound.isPrefix_path
  refine ⟨htold, nodup_appeals_of_isPrefix htold, ?_, ?_, fun hstill hn => hstill.returned hx hn,
    (wellFounded_inside s).apply x⟩
  · intro pre id post hwritten
    obtain ⟨rest, hrest⟩ := isPrefix_written x
    have hpath : x.path = pre ++ response id (.ok .null) :: (post ++ rest) := by
      rw [← hrest, hwritten, List.append_assoc, List.cons_append]
    obtain ⟨hspent, hpost⟩ := hx.spent hpath
    rw [List.filter_append] at hpost
    have hresponse := isNews_of_isResponse (answers_result id .null).isResponse
    have hall := hsound.filter_path_of_silent (.inr hspent)
    rw [hpath, List.filter_append, List.filter_cons_of_neg (by rw [hresponse]; decide),
      List.filter_append, hpost, List.append_nil] at hall
    exact ⟨hall, (List.append_eq_nil_iff.mp hpost).1⟩
  · intro hdone
    have hall : x.written.filter isNews = (relay 0 x.told).1 := by
      obtain hreturned | hstill := hdone
      · obtain ⟨hsilent, hpath⟩ := hsound.path_of_returned hreturned
        rw [← hpath, hsound.filter_path_of_silent hsilent]
      · rw [← hstill.path hsound,
          hsound.filter_path (hstill.events hsound) (hstill.hand hsound) hstill.untold]
    rw [hall]
    exact ⟨rfl, forall₂_relay 0 x.told⟩

def request (id : Nat) (method : String) : Json :=
  Json.object [("id", Json.nat id), ("method", .string method)]

/-- A conversation of `initialize`, `shutdown` and `exit`, to its end. -/
theorem delivered_of_shutdown :
    ∃ x, Serving {} x ∧ x.hasReturned = true ∧ x.told = [.status .idle] ∧
      x.written.filter isNews = (relay 0 [.status .idle]).1 := by
  have h : Serving {} _ := .step .begun (.read (request 1 "initialize") rfl rfl)
  have h := h.step (.launch rfl)
  have h := h.step (.start rfl)
  have h := h.step (.send rfl (by decide))
  have h := h.step (.tell rfl)
  have h := h.step (.take rfl rfl rfl)
  have h := h.step (.put rfl (by decide))
  have h := h.step (.fetch rfl rfl rfl)
  have h := h.step (.write rfl)
  have h := h.step (.fetch rfl rfl rfl)
  have h := h.step (.write rfl)
  have h := h.step (.read (request 2 "shutdown") rfl rfl)
  have h := h.step (.command rfl (by decide))
  have h := h.step (.obey rfl rfl rfl)
  have h := h.step (.retire rfl rfl)
  have h := h.step (.leave rfl rfl rfl rfl)
  have h := h.step (.join rfl rfl rfl)
  have h := h.step (.send rfl (by decide))
  have h := h.step (.fetch rfl rfl rfl)
  have h := h.step (.write rfl)
  have h := h.step (.read (notification "exit" none) rfl rfl)
  have h := h.step (.dismiss rfl (by decide))
  have h := h.step (.close rfl rfl rfl)
  have h := h.step (.return rfl rfl rfl rfl)
  exact ⟨_, h, rfl, rfl, ((delivered h).2.2.2.1 (.inl rfl)).1⟩

end Server

end WorkflowLint

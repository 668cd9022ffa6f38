import WorkflowLint.Proofs.Server.Discipline
import WorkflowLint.Proofs.Server.Streams
import Mathlib.Logic.Function.Iterate
/-!
# The read loop

A server on a closed stream reads frame by frame. A body that is no JSON is skipped and leaves the
reader at the next frame, so what is received are the bodies that are JSON, in order. Each round that
goes on has taken bytes off the stream, whatever is on it, so there are no more rounds than bytes, and
then one (`in_sync`).
-/

namespace WorkflowLint

namespace Frame

variable {closed started : Bool} {length : Option Nat} {s line rest : List UInt8}

/-! ## What a frame takes off the stream -/

theorem takeLine_eq (h : takeLine closed s = some (line, rest)) : line ≠ [] ∧ s = line ++ rest := by
  unfold takeLine at h
  split at h
  · split at h
    · next hs =>
      obtain ⟨rfl, rfl⟩ := Prod.mk.injEq .. ▸ Option.some.inj h
      exact ⟨hs.2, (List.append_nil _).symm⟩
    · cases h
  · next lf r hdrop =>
    obtain ⟨rfl, rfl⟩ := Prod.mk.injEq .. ▸ Option.some.inj h
    refine ⟨List.append_ne_nil_of_right_ne_nil _ (List.cons_ne_nil _ _), ?_⟩
    rw [List.append_assoc, List.singleton_append, ← hdrop, List.takeWhile_append_dropWhile]

theorem headers_takes {n : Nat} (h : headers closed length started s = .block n rest) :
    ∃ taken, taken ≠ [] ∧ s = taken ++ rest := by
  have hgo : ∀ {s line r : List UInt8}, takeLine closed s = some (line, r) →
      (∃ taken, taken ≠ [] ∧ r = taken ++ rest) → ∃ taken, taken ≠ [] ∧ s = taken ++ rest := by
    rintro s line r htake ⟨taken, hne, rfl⟩
    exact ⟨line ++ taken, List.append_ne_nil_of_right_ne_nil _ hne, by
      rw [(takeLine_eq htake).2, List.append_assoc]⟩
  fun_induction headers closed length started s with
  | case1 | case2 | case3 | case4 | case5 | case9 => cases h
  | case6 _ _ _ _ htake =>
    cases h
    exact ⟨_, takeLine_eq htake⟩
  | case7 _ _ _ _ _ htake _ _ _ _ _ ih => exact hgo htake (ih h)
  | case8 _ _ _ _ _ htake _ _ _ _ _ _ ih => exact hgo htake (ih h)

theorem headers_ne_waiting : headers true length started s ≠ .waiting := by
  fun_induction headers true length started s with
  | case1 _ _ _ _ h => cases h
  | case7 _ _ _ _ _ _ _ _ _ _ _ ih => exact ih
  | case8 _ _ _ _ _ _ _ _ _ _ _ _ ih => exact ih
  | _ =>
    intro h
    cases h

theorem next_takes {value : Except Json.SyntaxError Json} (h : next closed s = .body value rest) :
    ∃ taken, taken ≠ [] ∧ s = taken ++ rest := by
  unfold next at h
  split at h
  · cases h
  · cases h
  · cases h
  · next n r hblock =>
    obtain ⟨taken, hne, rfl⟩ := headers_takes hblock
    split at h
    · cases h
    · split at h
      · split at h <;> cases h
      · obtain ⟨-, rfl⟩ := Next.body.injEq .. ▸ h
        refine ⟨taken ++ r.take n, List.append_ne_nil_of_left_ne_nil hne _, ?_⟩
        rw [List.append_assoc, List.take_append_drop]

theorem next_ne_waiting : next true s ≠ .waiting := by
  unfold next
  split
  · next h => exact absurd h headers_ne_waiting
  · exact nofun
  · exact nofun
  · split
    · exact nofun
    · split
      · rw [if_pos rfl]
        exact nofun
      · exact nofun

end Frame

namespace Server

namespace Conversation

variable {c : Conversation} {rest : List UInt8}

/-! ## What reading does not look at -/

def withUnread (c : Conversation) (bytes : List UInt8) : Conversation := { c with unread := bytes }

theorem withUnread_drain (c : Conversation) (bytes : List UInt8) :
    (c.withUnread bytes).drain = c.drain.withUnread bytes := by
  unfold drain withUnread
  simp only
  split <;> rfl

theorem withUnread_perform (c : Conversation) (bytes : List UInt8) (a : Action) :
    (c.withUnread bytes).perform a = (c.perform a).withUnread bytes := by
  cases a with
  | launch => rfl
  | command => rfl
  | stop => exact withUnread_drain (c.play _) bytes
  | send frame =>
    change (c.withUnread bytes).send frame = (c.send frame).withUnread bytes
    by_cases hroom : c.queued < outboxRoom
    · rw [send, send, if_pos hroom, if_pos (show (c.withUnread bytes).queued < _ from hroom)]
      rfl
    · rw [send, send, if_neg hroom, if_neg (show ¬ (c.withUnread bytes).queued < _ from hroom),
        withUnread_drain]
      rfl

theorem withUnread_foldl_perform (c : Conversation) (bytes : List UInt8) (as : List Action) :
    as.foldl perform (c.withUnread bytes) = (as.foldl perform c).withUnread bytes := by
  induction as generalizing c with
  | nil => rfl
  | cons a as ih => rw [List.foldl_cons, withUnread_perform, ih, List.foldl_cons]

theorem withUnread_finish (c : Conversation) (bytes : List UInt8) (how : Except Frame.Fault Exit) :
    (c.withUnread bytes).finish how = (c.finish how).withUnread bytes := by
  have hstop := withUnread_perform c bytes .stop
  by_cases hsession : c.server.session.isSome
  · rw [finish, finish, if_pos hsession,
      if_pos (show (c.withUnread bytes).server.session.isSome from hsession), hstop]
    rfl
  · rw [finish, finish, if_neg hsession,
      if_neg (show ¬ (c.withUnread bytes).server.session.isSome from hsession)]
    rfl

theorem receive_error (c : Conversation) (e : Json.SyntaxError) : c.receive (.error e) = c := by
  unfold receive
  split
  · next h => cases h
  · rfl

theorem withUnread_receive (c : Conversation) (bytes : List UInt8)
    (body : Except Json.SyntaxError Json) :
    (c.withUnread bytes).receive body = (c.receive body).withUnread bytes := by
  cases body with
  | error e => rw [receive_error, receive_error]
  | ok frame =>
    by_cases hended : c.ended = none
    · rcases hh : c.server.handle c.surroundings frame with ⟨server, as, exit⟩
      rw [receive_of_handle hended frame hh,
        receive_of_handle (show (c.withUnread bytes).ended = none from hended) frame hh]
      have hperform := withUnread_foldl_perform { c with server } bytes as
      cases exit with
      | none => exact hperform
      | some how => exact (congrArg (finish · (.ok how)) hperform).trans (withUnread_finish _ _ _)
    · rw [receive_of_ended hended,
        receive_of_ended (show (c.withUnread bytes).ended ≠ none from hended)]

theorem withUnread_foldl_receive (c : Conversation) (bytes : List UInt8)
    (bodies : List (Except Json.SyntaxError Json)) :
    bodies.foldl receive (c.withUnread bytes) = (bodies.foldl receive c).withUnread bytes := by
  induction bodies generalizing c with
  | nil => rfl
  | cons body bodies ih => rw [List.foldl_cons, withUnread_receive, ih, List.foldl_cons]

theorem foldl_receive_of_ended (h : c.ended ≠ none) (bodies : List (Except Json.SyntaxError Json)) :
    bodies.foldl receive c = c := by
  induction bodies with
  | nil => rfl
  | cons body bodies ih => rw [List.foldl_cons, receive_of_ended h, ih]

/-! ## Rounds -/

/-- A conversation whose stream stopped, unless it has ended before. -/
def stopAt (c : Conversation) (stop : Frame.Stop) : Conversation :=
  if c.ended.isSome then c
  else
    match stop with
    | .waiting rest => { c with unread := rest }
    | .ended => c.finish (.ok .abrupt)
    | .broken f => c.finish (.error f)

theorem read_eq (h : c.ended = none) (closed : Bool) :
    c.read closed = ((Frame.readAll closed c.unread).1.foldl receive c).stopAt
      (Frame.readAll closed c.unread).2 := by
  rw [read, h]
  rfl

theorem read_of_ended (h : c.ended ≠ none) (closed : Bool) : c.read closed = c :=
  if_pos (Option.isSome_iff_ne_none.mpr h)

theorem stopAt_of_ended (h : c.ended ≠ none) (stop : Frame.Stop) : c.stopAt stop = c :=
  if_pos (Option.isSome_iff_ne_none.mpr h)

theorem stopAt_of_open (h : c.ended = none) (stop : Frame.Stop) :
    c.stopAt stop =
      match stop with
      | .waiting rest => c.withUnread rest
      | .ended => c.finish (.ok .abrupt)
      | .broken f => c.finish (.error f) :=
  if_neg (Option.not_isSome_iff_eq_none.mpr h)

theorem withUnread_stopAt (c : Conversation) (bytes : List UInt8) (stop : Frame.Stop) :
    ((c.withUnread bytes).stopAt stop).withUnread [] = (c.stopAt stop).withUnread [] := by
  by_cases h : c.ended = none
  · rw [stopAt_of_open h, stopAt_of_open (show (c.withUnread bytes).ended = none from h)]
    cases stop with
    | waiting rest => rfl
    | ended => exact congrArg (·.withUnread []) (withUnread_finish c bytes _)
    | broken f => exact congrArg (·.withUnread []) (withUnread_finish c bytes _)
  · rw [stopAt_of_ended h, stopAt_of_ended (show (c.withUnread bytes).ended ≠ none from h)]
    rfl

theorem ended_finish (c : Conversation) (how : Except Frame.Fault Exit) :
    (c.finish how).ended = some how := (finish_eq c how).2.1

/-- One round of the loop on a closed stream: read a frame and react to it. -/
def turn (c : Conversation) : Conversation :=
  if c.ended.isSome then c
  else
    match Frame.next true c.unread with
    | .waiting => c
    | .ended => c.finish (.ok .abrupt)
    | .broken f => c.finish (.error f)
    | .body value rest => (c.withUnread rest).receive value

theorem turn_of_body (h : c.ended = none) {value : Except Json.SyntaxError Json}
    (hnext : Frame.next true c.unread = .body value rest) :
    c.turn = (c.withUnread rest).receive value := by
  rw [turn, if_neg (Option.not_isSome_iff_eq_none.mpr h), hnext]

/-- What a round comes to: it ends the conversation, with all that is read from then on read, or it
takes a frame off the stream and reacts to it. -/
theorem turn_cases (h : c.ended = none) :
    (c.turn.ended ≠ none ∧ c.read true = c.turn) ∨
      ∃ taken value, taken ≠ [] ∧ c.unread = taken ++ c.turn.unread ∧
        c.turn = (c.receive value).withUnread c.turn.unread ∧
        Frame.readAll true c.unread =
          (value :: (Frame.readAll true c.turn.unread).1, (Frame.readAll true c.turn.unread).2) := by
  have hnot : ¬ c.ended.isSome = true := Option.not_isSome_iff_eq_none.mpr h
  cases hnext : Frame.next true c.unread with
  | waiting => exact absurd hnext Frame.next_ne_waiting
  | ended =>
    have hturn : c.turn = c.finish (.ok .abrupt) := by rw [turn, if_neg hnot, hnext]
    refine .inl ⟨by rw [hturn, ended_finish]; exact nofun, ?_⟩
    rw [hturn, read_eq h, Frame.readAll_ended hnext]
    exact stopAt_of_open h _
  | broken f =>
    have hturn : c.turn = c.finish (.error f) := by rw [turn, if_neg hnot, hnext]
    refine .inl ⟨by rw [hturn, ended_finish]; exact nofun, ?_⟩
    rw [hturn, read_eq h, Frame.readAll_broken hnext]
    exact stopAt_of_open h _
  | body value rest =>
    have hturn : c.turn = (c.receive value).withUnread rest :=
      (turn_of_body h hnext).trans (withUnread_receive c rest value)
    have hunread : c.turn.unread = rest := by rw [hturn]; rfl
    obtain ⟨taken, hne, htaken⟩ := Frame.next_takes hnext
    rw [hunread]
    exact .inr ⟨taken, value, hne, htaken, hturn, Frame.readAll_body hnext⟩

theorem turn_of_ended (h : c.ended ≠ none) : c.turn = c := if_pos (Option.isSome_iff_ne_none.mpr h)

theorem read_turn (c : Conversation) :
    (c.turn.read true).withUnread [] = (c.read true).withUnread [] := by
  by_cases h : c.ended = none
  · obtain ⟨hended, hread⟩ | ⟨taken, value, -, -, hturn, hall⟩ := turn_cases h
    · rw [read_of_ended hended, hread]
    · rw [read_eq h, hall, List.foldl_cons]
      by_cases hended : c.turn.ended = none
      · rw [read_eq hended, hturn, withUnread_foldl_receive, withUnread_stopAt]
      · have hreceived : (c.receive value).ended ≠ none := by
          rw [hturn] at hended
          exact hended
        rw [read_of_ended hended, foldl_receive_of_ended hreceived, stopAt_of_ended hreceived, hturn]
        rfl
  · rw [turn_of_ended h]

theorem read_iterate_turn (k : Nat) (c : Conversation) :
    ((turn^[k] c).read true).withUnread [] = (c.read true).withUnread [] := by
  induction k generalizing c with
  | zero => rfl
  | succ k ih => rw [Function.iterate_succ_apply, ih, read_turn]

theorem iterate_turn_of_ended (h : c.ended ≠ none) (k : Nat) : turn^[k] c = c :=
  Function.iterate_fixed (turn_of_ended h) k

theorem turn_takes (hopen : c.turn.ended = none) :
    ∃ taken, taken ≠ [] ∧ c.unread = taken ++ c.turn.unread := by
  by_cases h : c.ended = none
  · obtain ⟨hended, -⟩ | ⟨taken, value, hne, htaken, -⟩ := turn_cases h
    · exact absurd hopen hended
    · exact ⟨taken, hne, htaken⟩
  · rw [turn_of_ended h] at hopen
    exact absurd hopen h

/-- There are no more rounds than bytes, and then one. -/
theorem ended_iterate_turn {n : Nat} (hn : c.unread.length ≤ n) : (turn^[n + 1] c).ended ≠ none := by
  have hless : ∀ {c : Conversation}, c.turn.ended = none → c.turn.unread.length < c.unread.length := by
    intro c hopen
    obtain ⟨taken, hne, htaken⟩ := turn_takes hopen
    rw [htaken, List.length_append]
    exact Nat.lt_add_of_pos_left (List.length_pos_iff.mpr hne)
  induction n generalizing c with
  | zero => exact fun hopen => absurd (hless hopen) (by omega)
  | succ n ih =>
    rw [Function.iterate_succ_apply]
    by_cases hopen : c.turn.ended = none
    · have hshorter := hless hopen
      exact ih (by omega)
    · rw [iterate_turn_of_ended hopen]
      exact hopen

/-! ## In step with the stream -/

theorem foldl_receive_eq (c : Conversation) (bodies : List (Except Json.SyntaxError Json)) :
    bodies.foldl receive c =
      (bodies.filterMap Except.toOption).foldl (fun c frame => c.receive (.ok frame)) c := by
  induction bodies generalizing c with
  | nil => rfl
  | cons body bodies ih =>
    rw [List.foldl_cons, ih]
    cases body with
    | error e => rw [receive_error]; rfl
    | ok frame => rfl

/-- A packet is taken off the stream whole, whether its body is JSON or not, so of a stream of packets
those bodies are received that are JSON, in order. On any stream each round of the loop that goes on
has taken bytes off it, so that the loop is over after as many rounds as there are bytes, and one
more, with all done that reading does. -/
theorem in_sync (c : Conversation) :
    (∀ (p : Frame.Packet) (closed : Bool) (rest : List UInt8),
      Frame.next closed (p.bytes ++ rest) = .body (Json.parse p.body) rest) ∧
    (∀ ps : List Frame.Packet, c.ended = none → c.unread = ps.flatMap Frame.Packet.bytes →
      c.read true =
        ((ps.filterMap fun p => (Json.parse p.body).toOption).foldl
          (fun c frame => c.receive (.ok frame)) c).stopAt .ended) ∧
    (∀ d : Conversation, d.turn.ended = none →
      ∃ taken, taken ≠ [] ∧ d.unread = taken ++ d.turn.unread) ∧
    (turn^[c.unread.length + 1] c).ended ≠ none ∧
    (turn^[c.unread.length + 1] c).withUnread [] = (c.read true).withUnread [] := by
  refine ⟨Frame.next_packet, fun ps h hunread => ?_, fun d => turn_takes, ended_iterate_turn le_rfl, ?_⟩
  · have hall := Frame.readAll_packets ps true []
    rw [List.append_nil, Frame.readAll_nil, List.append_nil, ← hunread] at hall
    rw [read_eq h, hall, foldl_receive_eq, List.filterMap_map]
    rfl
  · rw [← read_iterate_turn (c.unread.length + 1) c, read_of_ended (ended_iterate_turn le_rfl)]

/-- A packet with a body that is no JSON, before one with a list. -/
def outOfTune : List Frame.Packet := [.ofBody [0x7B] (by decide), Frame.loudPacket]

theorem in_sync_of_outOfTune :
    let c : Conversation := { unread := outOfTune.flatMap Frame.Packet.bytes }
    (c.ended = none ∧ c.unread = outOfTune.flatMap Frame.Packet.bytes ∧ c.turn.ended = none) ∧
      c.read true = (c.receive (.ok (.array [.null, .bool true]))).stopAt .ended ∧
      (∃ taken, taken ≠ [] ∧ c.unread = taken ++ c.turn.unread) ∧
      (turn^[c.unread.length + 1] c).ended ≠ none := by
  intro c
  obtain ⟨e, hbad⟩ : ∃ e, Json.parse [0x7B] = .error e := ⟨_, rfl⟩
  have hgood : Json.parse Frame.loudPacket.body = .ok (.array [.null, .bool true]) := by
    have harray : Frame.loudPacket.body =
        [0x5B, 0x6E, 0x75, 0x6C, 0x6C, 0x2C, 0x74, 0x72, 0x75, 0x65, 0x5D] := by decide +kernel
    rw [harray]
    rfl
  have hbodies : (outOfTune.filterMap fun p => (Json.parse p.body).toOption) =
      [.array [.null, .bool true]] := by
    simp only [outOfTune, List.filterMap_cons, Frame.Packet.ofBody, hbad, hgood, Except.toOption,
      List.filterMap_nil]
  have hopen : c.turn.ended = none := by
    have hnext : Frame.next true c.unread = .body (Json.parse [0x7B]) (Frame.loudPacket.bytes ++ []) :=
      Frame.next_packet (.ofBody [0x7B] (by decide)) true _
    rw [turn_of_body rfl hnext, hbad, receive_error]
    rfl
  obtain ⟨-, hread, htakes, hends, -⟩ := in_sync c
  refine ⟨⟨rfl, rfl, hopen⟩, ?_, htakes c hopen, hends⟩
  rw [hread outOfTune rfl rfl, hbodies]
  rfl

end Conversation

end Server

end WorkflowLint

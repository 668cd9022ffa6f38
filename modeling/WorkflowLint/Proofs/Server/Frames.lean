import WorkflowLint.Proofs.Json.Fields
import WorkflowLint.Server.Relay
import WorkflowLint.Server.Session
import Mathlib.Data.List.Basic
import Mathlib.Data.List.Nodup
/-!
# Frames to the editor

What a frame is can be read off its fields, whoever sent it: a response has no method, and what the
coordinator tells has one of four. `relay` carries events over one by one, drops only that a run
settled, and numbers the requests among its frames upwards, so that no two share an identifier
(`nodup_appeals`).
-/

namespace WorkflowLint

def Event.isSettled : Event → Bool
  | .settled _ => true
  | _ => false

namespace Server

/-! ## Kinds of frames -/

def method? (frame : Json) : Option String := (frame.get? "method").bind Json.asString?

def isResponse (frame : Json) : Bool := (frame.get? "method").isNone

/-- The methods of what the coordinator tells. -/
def newsMethods : List String :=
  ["textDocument/publishDiagnostics", "flowlint/status", "window/showMessageRequest",
    "window/showMessage"]

/-- Whether a frame is about something the coordinator told. -/
def isNews (frame : Json) : Bool := (method? frame).any fun m => m ∈ newsMethods

/-- Whether a frame asks the user something. -/
def isAppeal (frame : Json) : Bool := method? frame = some "window/showMessageRequest"

/-- A frame is the response to the request `id`, with a result or with the code of an error. -/
def Answers (frame id : Json) : Except Int Json → Prop
  | .ok v =>
    frame.get? "method" = none ∧ frame.get? "id" = some id ∧ frame.get? "result" = some v ∧
      frame.get? "error" = none
  | .error n =>
    frame.get? "method" = none ∧ frame.get? "id" = some id ∧ frame.get? "result" = none ∧
      ∃ e, frame.get? "error" = some e ∧ e.get? "code" = some (Json.int n)

variable {frame id : Json}

theorem answers_result (id v : Json) : Answers (response id (.ok v)) id (.ok v) := by
  simp [Answers, response, version, Json.lookup_cons]

theorem answers_refusal (id : Json) (r : Refusal) :
    Answers (response id (.error r)) id (.error r.code) := by
  simp [Answers, response, version, Json.lookup_cons]

theorem Answers.isResponse {outcome : Except Int Json} (h : Answers frame id outcome) :
    isResponse frame = true := by
  cases outcome with
  | ok v => rw [Server.isResponse, h.1, Option.isNone_none]
  | error n => rw [Server.isResponse, h.1, Option.isNone_none]

theorem isNews_of_isResponse (h : isResponse frame = true) : isNews frame = false := by
  rw [isResponse, Option.isNone_iff_eq_none] at h
  rw [isNews, method?, h]
  rfl

theorem isResponse_of_isNews (h : isNews frame = true) : isResponse frame = false := by
  cases hr : isResponse frame with
  | false => rfl
  | true => rw [isNews_of_isResponse hr] at h; cases h

theorem isNews_of_isAppeal (h : isAppeal frame = true) : isNews frame = true := by
  rw [isAppeal, decide_eq_true_iff] at h
  rw [isNews, h]
  decide

theorem response_ne (id id' v : Json) (r : Refusal) :
    response id (.error r) ≠ response id' (.ok v) := by
  intro h
  have hresult := congrArg (Json.get? "result") h
  simp [response, version, Json.lookup_cons] at hresult

theorem get?_method_notification (m : String) (params : Option Json) :
    (notification m params).get? "method" = some (.string m) := by
  cases params <;> simp [notification, version, Json.lookup_cons]

theorem method?_notification (m : String) (params : Option Json) :
    method? (notification m params) = some m := by
  rw [method?, get?_method_notification]
  rfl

theorem isResponse_notification (m : String) (params : Option Json) :
    isResponse (notification m params) = false := by
  rw [isResponse, get?_method_notification]
  rfl

theorem notification_ne_response (m : String) (params : Option Json) (id : Json)
    (outcome : Except Refusal Json) : notification m params ≠ response id outcome := by
  intro h
  have hm := congrArg (Json.get? "method") h
  rw [get?_method_notification] at hm
  cases outcome <;> simp [response, version, Json.lookup_cons] at hm

/-! ## Frames of events -/

def appealId (number : Nat) : Json := .string (noticeLead ++ toString number)

theorem appealId_injective : Function.Injective appealId := by
  intro a b h
  rw [appealId, appealId, Json.string.injEq] at h
  have hlist := congrArg String.toList h
  rw [String.toList_append, String.toList_append, List.append_cancel_left_eq, Nat.toString_eq_repr,
    Nat.toString_eq_repr, Nat.toList_repr, Nat.toList_repr] at hlist
  rw [← Nat.ofDigitChars_ten_toDigits (n := a), hlist, Nat.ofDigitChars_ten_toDigits]

theorem frameOf?_eq_none_iff {number : Nat} {e : Event} :
    frameOf? number e = none ↔ ∃ url, e = .settled url := by
  cases e with
  | published url version ds => simp [frameOf?]
  | status i => simp [frameOf?]
  | settled url => simp [frameOf?]
  | notice n => by_cases hn : n.offersLog <;> simp [frameOf?, hn]

theorem isNews_frameOf? {number : Nat} {e : Event} (h : frameOf? number e = some frame) :
    isNews frame = true := by
  rw [isNews]
  cases e with
  | published url version ds =>
    obtain rfl := Option.some.inj h
    rw [method?_notification]
    decide
  | status i =>
    obtain rfl := Option.some.inj h
    rw [method?_notification]
    decide
  | settled url => cases h
  | notice n =>
    by_cases hn : n.offersLog
    · rw [frameOf?, if_pos hn] at h
      obtain rfl := Option.some.inj h
      simp [method?, version, Json.lookup_cons, Json.asString?, newsMethods]
    · rw [frameOf?, if_neg hn] at h
      obtain rfl := Option.some.inj h
      rw [method?_notification]
      decide

theorem isAppeal_frameOf? {number : Nat} {e : Event} (h : frameOf? number e = some frame) :
    isAppeal frame = true ∧ countNotice number e = number + 1 ∧
        frame.get? "id" = some (appealId (number + 1)) ∨
      isAppeal frame = false ∧ countNotice number e = number := by
  cases e with
  | published url version ds =>
    obtain rfl := Option.some.inj h
    exact .inr ⟨by rw [isAppeal, method?_notification]; decide, rfl⟩
  | status i =>
    obtain rfl := Option.some.inj h
    exact .inr ⟨by rw [isAppeal, method?_notification]; decide, rfl⟩
  | settled url => cases h
  | notice n =>
    by_cases hn : n.offersLog
    · rw [frameOf?, if_pos hn] at h
      obtain rfl := Option.some.inj h
      refine .inl ⟨?_, if_pos hn, ?_⟩
      · simp [isAppeal, method?, version, Json.lookup_cons, Json.asString?]
      · simp [version, Json.lookup_cons, appealId]
    · rw [frameOf?, if_neg hn] at h
      obtain rfl := Option.some.inj h
      exact .inr ⟨by rw [isAppeal, method?_notification]; decide, if_neg hn⟩

theorem relay_append (number : Nat) (es es' : List Event) :
    relay number (es ++ es') =
      ((relay number es).1 ++ (relay (relay number es).2 es').1,
        (relay (relay number es).2 es').2) := by
  induction es generalizing number with
  | nil => rfl
  | cons e es ih => simp only [List.cons_append, relay, ih, List.append_assoc]

/-- A frame is the one of an event, whatever number it has. -/
def Carries (e : Event) (frame : Json) : Prop := ∃ number, frameOf? number e = some frame

theorem forall₂_relay (number : Nat) (es : List Event) :
    List.Forall₂ Carries (es.filter fun e => !e.isSettled) (relay number es).1 := by
  induction es generalizing number with
  | nil => exact .nil
  | cons e es ih =>
    rw [relay]
    cases hf : frameOf? number e with
    | none =>
      obtain ⟨url, rfl⟩ := frameOf?_eq_none_iff.mp hf
      exact ih number
    | some frame =>
      have he : e.isSettled = false := by
        cases e with
        | settled url => cases hf
        | _ => rfl
      rw [List.filter_cons, he]
      exact .cons ⟨number, hf⟩ (ih _)

theorem isNews_relay (number : Nat) (es : List Event) :
    ∀ frame ∈ (relay number es).1, isNews frame = true := by
  induction es generalizing number with
  | nil => exact fun frame hf => absurd hf List.not_mem_nil
  | cons e es ih =>
    simp only [relay, List.forall_mem_append, Option.mem_toList]
    exact ⟨fun frame hf => isNews_frameOf? hf, ih _⟩

theorem appeals_relay (number : Nat) (es : List Event) :
    ∃ k, ((relay number es).1.filter isAppeal).map (Json.get? "id") =
      (List.range' (number + 1) k).map fun n => some (appealId n) := by
  induction es generalizing number with
  | nil => exact ⟨0, rfl⟩
  | cons e es ih =>
    rw [relay]
    cases hf : frameOf? number e with
    | none =>
      obtain ⟨url, rfl⟩ := frameOf?_eq_none_iff.mp hf
      exact ih number
    | some frame =>
      obtain ⟨happeal, hcount, hid⟩ | ⟨happeal, hcount⟩ := isAppeal_frameOf? hf
      · obtain ⟨k, hk⟩ := ih (number + 1)
        refine ⟨k + 1, ?_⟩
        rw [hcount]
        simp only [Option.toList_some, List.singleton_append]
        rw [List.filter_cons_of_pos happeal, List.map_cons, hk, hid, List.range'_succ,
          List.map_cons]
      · obtain ⟨k, hk⟩ := ih number
        refine ⟨k, ?_⟩
        rw [hcount]
        simp only [Option.toList_some, List.singleton_append]
        rw [List.filter_cons_of_neg (by rw [happeal]; exact Bool.false_ne_true), hk]

/-- No two requests to the user share an identifier. -/
theorem nodup_appeals (number : Nat) (es : List Event) :
    (((relay number es).1.filter isAppeal).map (Json.get? "id")).Nodup := by
  obtain ⟨k, hk⟩ := appeals_relay number es
  rw [hk]
  exact (List.nodup_range' (s := number + 1) (n := k)).map
    (fun _ _ h => appealId_injective (Option.some.inj h))

end Server

end WorkflowLint

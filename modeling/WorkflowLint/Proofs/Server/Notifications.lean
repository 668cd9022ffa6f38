import WorkflowLint.Proofs.Server.Frames
/-!
# Notifications that are taken and that are rejected

A notification is rejected when its parameters have the wrong shape, when the address of its
document cannot be read, when it brings no change, or when the settings it brings are no layer
(`Rejected`). All but the last leave the session alone and give the coordinator nothing to do.
Settings that are no layer take the place of those the editor sent before them, and the coordinator
is given the settings that are left (`left_alone_iff`).
-/

namespace WorkflowLint

namespace Server

/-- The parameters of the notifications about one document. -/
def documentRecords : List (String × Json.Record DocumentParams) :=
  [("textDocument/didOpen", openRecord), ("textDocument/didChange", changeRecord),
    ("textDocument/didSave", saveRecord), ("textDocument/didClose", closeRecord)]

/-- The methods of the notifications a session knows. -/
def noticeMethods : List String :=
  documentRecords.map (·.1) ++
    ["workspace/didChangeConfiguration", "workspace/didChangeWorkspaceFolders",
      "flowlint/didChangeActiveDocument"]

/-- A notification brings settings that are no layer. -/
def BringsNoLayer (m : String) (params : Json) : Prop :=
  m = "workspace/didChangeConfiguration" ∧
    ∃ v e, settingsRecord.read .null params = .ok v ∧ Layer.ofClient v = .error e

/-- A notification is rejected. -/
inductive Rejected : String → Json → Prop
  | shape {m : String} {record : Json.Record DocumentParams} {params : Json} {e : Json.Mismatch}
      (hm : (m, record) ∈ documentRecords) (hp : record.read {} params = .error e) :
      Rejected m params
  | address {m : String} {record : Json.Record DocumentParams} {params : Json} {p : DocumentParams}
      {e : Url.Fault} (hm : (m, record) ∈ documentRecords)
      (hp : record.read {} params = .ok p) (hu : Url.parse p.uri = .error e) : Rejected m params
  | noChange {params : Json} {p : DocumentParams} (hp : changeRecord.read {} params = .ok p)
      (hc : p.changes = []) : Rejected "textDocument/didChange" params
  | settingsShape {params : Json} {e : Json.Mismatch}
      (hp : settingsRecord.read .null params = .error e) :
      Rejected "workspace/didChangeConfiguration" params
  | noLayer {m : String} {params : Json} (hs : BringsNoLayer m params) : Rejected m params
  | foldersShape {params : Json} {e : Json.Mismatch}
      (hp : foldersRecord.read {} params = .error e) :
      Rejected "workspace/didChangeWorkspaceFolders" params
  | activeShape {params : Json} {e : Json.Mismatch}
      (hp : activeRecord.read none params = .error e) :
      Rejected "flowlint/didChangeActiveDocument" params
  | activeAddress {params : Json} {uri : String} {e : Url.Fault}
      (hp : activeRecord.read none params = .ok (some uri)) (hu : Url.parse uri = .error e) :
      Rejected "flowlint/didChangeActiveDocument" params

def Session.withoutClient (x : Session) : Session :=
  { x with sources := { x.sources with client := none } }

variable {s : Surroundings} {x y : Session} {m : String} {params : Json}

/-! ## What a session does -/

theorem commands_notice? {actions : List Action} (h : x.notice? s m params = some (y, actions)) :
    ∃ cs : List Command, actions = cs.map .command ∧ .shutdown ∉ cs := by
  unfold Session.notice? at h
  split at h <;>
    simp only [Option.bind_eq_bind, Option.bind_eq_some_iff, Option.pure_def, Option.some.injEq,
      Prod.mk.injEq, reduceCtorEq] at h
  case h_1 =>
    obtain ⟨p, -, url, -, -, rfl⟩ := h
    exact ⟨[_], rfl, by simp⟩
  case h_2 =>
    obtain ⟨p, -, url, -, text, -, -, rfl⟩ := h
    exact ⟨[_], rfl, by simp⟩
  case h_3 =>
    obtain ⟨p, -, url, -, -, rfl⟩ := h
    exact ⟨[_], rfl, by simp⟩
  case h_4 =>
    obtain ⟨p, -, url, -, -, rfl⟩ := h
    exact ⟨[_], rfl, by simp⟩
  case h_5 =>
    obtain ⟨settings, -, -, rfl⟩ := h
    exact ⟨[_], rfl, by simp⟩
  case h_6 =>
    obtain ⟨c, -, -, rfl⟩ := h
    split_ifs
    · exact ⟨[_], rfl, by simp⟩
    · exact ⟨[_, _], rfl, by simp⟩
  case h_7 =>
    obtain ⟨focus, -, h⟩ := h
    split at h
    · obtain ⟨-, rfl⟩ := Prod.mk.inj (Option.some.inj h)
      exact ⟨[_], rfl, by simp⟩
    · simp only [Option.bind_eq_some_iff, Option.some.injEq, Prod.mk.injEq] at h
      obtain ⟨url, -, -, rfl⟩ := h
      exact ⟨[_], rfl, by simp⟩

/-- Of the rejected notifications only one has an effect. -/
theorem notice?_of_rejected (hr : Rejected m params) (hs : ¬ BringsNoLayer m params) :
    x.notice? s m params = none := by
  cases hr with
  | shape hm hp =>
    simp only [documentRecords, List.mem_cons, Prod.mk.injEq, List.not_mem_nil, or_false] at hm
    obtain ⟨rfl, rfl⟩ | ⟨rfl, rfl⟩ | ⟨rfl, rfl⟩ | ⟨rfl, rfl⟩ := hm <;>
      simp [Session.notice?, hp, Except.toOption]
  | address hm hp hu =>
    simp only [documentRecords, List.mem_cons, Prod.mk.injEq, List.not_mem_nil, or_false] at hm
    obtain ⟨rfl, rfl⟩ | ⟨rfl, rfl⟩ | ⟨rfl, rfl⟩ | ⟨rfl, rfl⟩ := hm <;>
      simp [Session.notice?, hp, hu, Except.toOption]
  | noChange hp hc => simp [Session.notice?, hp, hc, Except.toOption]
  | settingsShape hp => simp [Session.notice?, hp, Except.toOption]
  | noLayer h => exact absurd h hs
  | foldersShape hp => simp [Session.notice?, hp, Except.toOption]
  | activeShape hp => simp [Session.notice?, hp, Except.toOption]
  | activeAddress hp hu => simp [Session.notice?, hp, hu, Except.toOption]

theorem notice?_of_bringsNoLayer (hs : BringsNoLayer m params) :
    x.notice? s m params = some (x.withoutClient, [x.withoutClient.configure s]) := by
  obtain ⟨rfl, v, e, hv, he⟩ := hs
  simp [Session.notice?, hv, Except.toOption, clientLayer?, he, Session.withoutClient]

theorem Rejected.mem_noticeMethods (hr : Rejected m params) : m ∈ noticeMethods := by
  cases hr with
  | shape hm | address hm => exact List.mem_append_left _ (List.mem_map_of_mem hm)
  | noLayer hs => rw [hs.1]; decide
  | noChange | settingsShape | foldersShape | activeShape | activeAddress => decide

theorem rejected_or_read {record : Json.Record DocumentParams} (hm : (m, record) ∈ documentRecords)
    (params : Json) :
    Rejected m params ∨
      ∃ p url, record.read {} params = .ok p ∧ Url.parse p.uri = .ok url := by
  cases hp : record.read {} params with
  | error e => exact .inl (.shape hm hp)
  | ok p =>
    cases hu : Url.parse p.uri with
    | error e => exact .inl (.address hm hp hu)
    | ok url => exact .inr ⟨p, url, rfl, hu⟩

/-- What a session knows and does not accept is rejected. -/
theorem rejected_of_notice? (hm : m ∈ noticeMethods) (h : x.notice? s m params = none) :
    Rejected m params := by
  simp only [noticeMethods, documentRecords, List.map_cons, List.map_nil, List.cons_append,
    List.nil_append, List.mem_cons, List.not_mem_nil, or_false] at hm
  obtain rfl | rfl | rfl | rfl | rfl | rfl | rfl := hm
  · obtain hr | ⟨p, url, hp, hu⟩ := rejected_or_read (.head _) params
    · exact hr
    · simp [Session.notice?, hp, hu, Except.toOption] at h
  · obtain hr | ⟨p, url, hp, hu⟩ := rejected_or_read (.tail _ (.head _)) params
    · exact hr
    · simp only [Session.notice?, hp, hu, Except.toOption, Option.bind_eq_bind, Option.bind_some,
        Option.pure_def, Option.bind_eq_none_iff, reduceCtorEq, imp_false] at h
      exact .noChange hp (List.getLast?_eq_none_iff.mp (Option.eq_none_iff_forall_ne_some.mpr h))
  · obtain hr | ⟨p, url, hp, hu⟩ := rejected_or_read (.tail _ (.tail _ (.head _))) params
    · exact hr
    · simp [Session.notice?, hp, hu, Except.toOption] at h
  · obtain hr | ⟨p, url, hp, hu⟩ := rejected_or_read (.tail _ (.tail _ (.tail _ (.head _)))) params
    · exact hr
    · simp [Session.notice?, hp, hu, Except.toOption] at h
  · cases hp : settingsRecord.read .null params with
    | error e => exact .settingsShape hp
    | ok v => simp [Session.notice?, hp, Except.toOption] at h
  · cases hp : foldersRecord.read {} params with
    | error e => exact .foldersShape hp
    | ok c => simp [Session.notice?, hp, Except.toOption] at h
  · cases hp : activeRecord.read none params with
    | error e => exact .activeShape hp
    | ok focus =>
      cases focus with
      | none => simp [Session.notice?, hp, Except.toOption] at h
      | some uri =>
        cases hu : Url.parse uri with
        | error e => exact .activeAddress hp hu
        | ok url => simp [Session.notice?, hp, hu, Except.toOption] at h

/-! ## What the server does -/

variable {server : Server} {frame : Json}

theorem notify_of_rejected (hx : server.session = some x) (hr : Rejected m params)
    (hs : ¬ BringsNoLayer m params) : server.notify s m params = (server, []) := by
  rw [notify, hx, Option.bind_some, notice?_of_rejected hr hs]

theorem notify_of_bringsNoLayer (hx : server.session = some x) (hs : BringsNoLayer m params) :
    server.notify s m params =
      ({ server with session := some x.withoutClient }, [x.withoutClient.configure s]) := by
  rw [notify, hx, Option.bind_some, notice?_of_bringsNoLayer hs]

theorem handle_notification (hf : Incoming.ofFrame? frame = some (.notification m params))
    (hm : m ≠ "exit") :
    server.handle s frame =
      ((server.notify s m params).1, (server.notify s m params).2, none) := by
  rw [handle, hf]
  split
  · rename_i heq
    cases heq
  · rename_i heq
    cases heq
  · rename_i heq
    cases heq
    exact absurd rfl hm
  · rename_i heq
    cases heq
    rfl
  · rename_i heq
    cases heq

/-- Of the rejected notifications those that bring no layer are not left alone: what the editor set
is lost, and the coordinator is given the settings that are left. -/
theorem left_alone_iff (hx : server.session = some x) (hr : Rejected m params)
    (hf : Incoming.ofFrame? frame = some (.notification m params)) :
    (server.handle s frame = (server, [], none) ↔ ¬ BringsNoLayer m params) ∧
      (BringsNoLayer m params →
        server.handle s frame =
          ({ server with session := some x.withoutClient }, [x.withoutClient.configure s],
            none)) := by
  have hm : m ≠ "exit" := by
    rintro rfl
    exact absurd hr.mem_noticeMethods (by decide)
  rw [handle_notification hf hm]
  refine ⟨⟨fun h hs => ?_, fun hs => ?_⟩, fun hs => ?_⟩
  · rw [notify_of_bringsNoLayer hx hs] at h
    cases (Prod.mk.inj (Prod.mk.inj h).2).1
  · rw [notify_of_rejected hx hr hs]
  · rw [notify_of_bringsNoLayer hx hs]

/-- A session in a trusted workspace whose editor chose the tool. -/
def chosenTool : Session where
  sources := { client := some { executable := some "mylint" } }
  trusted := true
  workspace := []

/-- Settings whose debounce is no number. -/
def wordyDebounce : Json :=
  Json.object [("settings", Json.object [("debounceMs", .string "soon")])]

/-- A change without a text for the document leaves the session alone. -/
theorem left_alone_of_noChange :
    let frame := notification "textDocument/didChange" (some (Json.object
      [("textDocument", Json.object [("uri", .string "file:///ci.yml"), ("version", Json.int 2)]),
        ("contentChanges", .array [])]))
    handle {} { session := some chosenTool } frame = ({ session := some chosenTool }, [], none) :=
  (left_alone_iff rfl (.noChange rfl rfl) rfl).1.mpr fun hs => absurd hs.1 (by decide)

/-- Settings that are no layer take the choice of the tool with them. -/
theorem choice_lost_of_noLayer :
    let frame := notification "workspace/didChangeConfiguration" (some wordyDebounce)
    Rejected "workspace/didChangeConfiguration" wordyDebounce ∧
      Incoming.ofFrame? frame =
        some (.notification "workspace/didChangeConfiguration" wordyDebounce) ∧
      (chosenTool.settings {}).executable = "mylint" ∧
      (chosenTool.withoutClient.settings {}).executable = "actionlint" ∧
      handle {} { session := some chosenTool } frame =
        ({ session := some chosenTool.withoutClient }, [chosenTool.withoutClient.configure {}],
          none) :=
  ⟨.noLayer ⟨rfl, _, _, rfl, rfl⟩, rfl, by decide +kernel, by decide +kernel, rfl⟩

end Server

end WorkflowLint

import WorkflowLint.Proofs.Coordinator.Terms
import WorkflowLint.Proofs.Server.Soundness
/-!
# Sessions and the coordinator agree

The server tells the coordinator about settings and roots only when it takes them to have changed.
However the tasks take turns, what the coordinator works by once it has obeyed all it was given are
the roots of the session and the settings that its sources come to, each layer of a file read anew
(`coherent`). That a session keeps the layers of its files current makes it safe to pass over
settings when the layer of the first root stays the same (`Session.IsCurrent`).
-/

namespace WorkflowLint

namespace Server

/-! ## Roots -/

theorem same_refl (p : Path) : p.same p = true := decide_eq_true rfl

theorem same_iff {p q : Path} : p.same q = true ↔ p.components = q.components := decide_eq_true_iff

theorem foldl_add (roots : Workspace) (ps : List Path) :
    ps.foldl (fun roots p => if roots.any p.same then roots else roots ++ [p]) roots =
      roots ++ (ps.filter fun p => !roots.any p.same).eraseDupsBy Path.same := by
  induction ps generalizing roots with
  | nil => rw [List.foldl_nil, List.filter_nil, List.eraseDupsBy_nil, List.append_nil]
  | cons p ps ih =>
    rw [List.foldl_cons, ih]
    by_cases hp : roots.any p.same = true
    · rw [if_pos hp, List.filter_cons_of_neg (by rw [hp]; decide)]
    · have hnew : (!roots.any p.same) = true := by rw [Bool.eq_false_iff.mpr hp]; rfl
      rw [if_neg hp, List.filter_cons_of_pos (p := fun q : Path => !roots.any q.same) hnew,
        List.eraseDupsBy_cons, List.filter_filter, List.append_assoc, List.singleton_append]
      congr 4
      funext q
      simp [Bool.and_comm]

theorem exists_same_mem {p : Path} {n : Nat} {ps : List Path} (hn : ps.length ≤ n) (hp : p ∈ ps) :
    ∃ q ∈ ps.eraseDupsBy Path.same, p.same q = true := by
  induction n generalizing ps with
  | zero =>
    rw [List.eq_nil_of_length_eq_zero (Nat.le_zero.mp hn)] at hp
    cases hp
  | succ n ih =>
    cases ps with
    | nil => cases hp
    | cons a as =>
      rw [List.eraseDupsBy_cons]
      by_cases ha : p.same a = true
      · exact ⟨a, List.mem_cons_self, ha⟩
      · have hmem : p ∈ as := by
          obtain rfl | hmem := List.mem_cons.mp hp
          · exact absurd (same_refl p) ha
          · exact hmem
        have hless := List.length_filter_le (fun b : Path => b.same a = false) as
        have hmem' : p ∈ as.filter fun b : Path => b.same a = false :=
          List.mem_filter.mpr ⟨hmem, decide_eq_true (Bool.eq_false_iff.mpr ha)⟩
        rw [List.length_cons] at hn
        obtain ⟨q, hq, hsame⟩ := ih (by omega) hmem'
        exact ⟨q, List.mem_cons_of_mem _ hq, hsame⟩

/-- The roots after a change: those that were not removed, and behind them what was added and is not
among them, each once. What was removed and added is added. -/
theorem changeRoots_eq (roots : Workspace) (c : FolderChange) :
    let removed := c.removed.filterMap pathOfUrl?
    let added := c.added.filterMap pathOfUrl?
    let kept := roots.filter fun root => !removed.any root.same
    let fresh := (added.filter fun p => !kept.any p.same).eraseDupsBy Path.same
    changeRoots roots c = kept ++ fresh ∧
      ∀ p ∈ added, removed.any p.same = true → ∃ q ∈ fresh, p.same q = true := by
  intro removed added kept fresh
  refine ⟨foldl_add kept added, fun p hp hremoved => ?_⟩
  obtain ⟨r, hr, hpr⟩ := List.any_eq_true.mp hremoved
  have hkept : kept.any p.same = false := by
    rw [Bool.eq_false_iff]
    intro hany
    obtain ⟨k, hk, hpk⟩ := List.any_eq_true.mp hany
    have hnot := (List.mem_filter.mp hk).2
    have hkr : removed.any k.same = true :=
      List.any_eq_true.mpr ⟨r, hr, same_iff.mpr ((same_iff.mp hpk).symm.trans (same_iff.mp hpr))⟩
    rw [hkr] at hnot
    cases hnot
  exact exists_same_mem (Nat.le_refl _) (List.mem_filter.mpr ⟨hp, by rw [hkept]; rfl⟩)

/-! ## Sessions -/

/-- What a session has the coordinator work by. -/
def Session.terms (s : Surroundings) (x : Session) : Terms :=
  { settings := x.settings s, workspace := x.workspace }

/-- A session has the layers of the files as they are. -/
structure Session.IsCurrent (s : Surroundings) (x : Session) : Prop where
  userFile : x.sources.userFile = s.userFile.bind (Layer.load? s.files)
  workspace : x.sources.workspace = workspaceLayer? s x.workspace

variable {s : Surroundings} {x y : Session} {m : String} {params : Json}

theorem Session.IsCurrent.sources_eq (h : x.IsCurrent s) :
    x.sources =
      { userFile := s.userFile.bind (Layer.load? s.files)
        client := x.sources.client
        workspace := x.workspace.head?.bind fun root =>
          Layer.load? s.files (Layer.workspaceFile root) } := by
  rcases x with ⟨⟨userFile, client, workspace⟩, trusted, roots⟩
  obtain ⟨huser, hworkspace⟩ := h
  exact congrArg₂ (Sources.mk · client ·) huser hworkspace

theorem isCurrent_begin (p : InitializeParams) : (Session.begin s p).IsCurrent s := ⟨rfl, rfl⟩

/-- A notification that a session accepts keeps it current, and the commands it leads to bring the
coordinator to the terms of the session after it. -/
theorem terms_notice? (hx : x.IsCurrent s) {actions : List Action}
    (h : x.notice? s m params = some (y, actions)) :
    y.IsCurrent s ∧ ∃ cs : List Command, actions = cs.map .command ∧
      cs.foldl Terms.after (x.terms s) = y.terms s := by
  unfold Session.notice? at h
  split at h <;>
    simp only [Option.bind_eq_bind, Option.bind_eq_some_iff, Option.pure_def, Option.some.injEq,
      Prod.mk.injEq, reduceCtorEq] at h
  case h_1 =>
    obtain ⟨p, -, url, -, rfl, rfl⟩ := h
    exact ⟨hx, [_], rfl, rfl⟩
  case h_2 =>
    obtain ⟨p, -, url, -, text, -, rfl, rfl⟩ := h
    exact ⟨hx, [_], rfl, rfl⟩
  case h_3 =>
    obtain ⟨p, -, url, -, rfl, rfl⟩ := h
    exact ⟨hx, [_], rfl, rfl⟩
  case h_4 =>
    obtain ⟨p, -, url, -, rfl, rfl⟩ := h
    exact ⟨hx, [_], rfl, rfl⟩
  case h_5 =>
    obtain ⟨settings, -, rfl, rfl⟩ := h
    exact ⟨⟨hx.userFile, hx.workspace⟩, [_], rfl, rfl⟩
  case h_6 =>
    obtain ⟨c, -, rfl, rfl⟩ := h
    refine ⟨⟨hx.userFile, rfl⟩, ?_⟩
    split
    · next hsame =>
      -- the layer is the one the session has, so the settings are those given before
      refine ⟨[_], rfl, ?_⟩
      rw [hsame]
      rfl
    · exact ⟨[_, _], rfl, rfl⟩
  case h_7 =>
    obtain ⟨focus, -, h⟩ := h
    split at h
    · obtain ⟨rfl, rfl⟩ := Prod.mk.inj (Option.some.inj h)
      exact ⟨hx, [_], rfl, rfl⟩
    · simp only [Option.bind_eq_some_iff, Option.some.injEq, Prod.mk.injEq] at h
      obtain ⟨url, -, rfl, rfl⟩ := h
      exact ⟨hx, [_], rfl, rfl⟩

/-! ## What the coordinator is given -/

/-- What the coordinator works by, if it is launched. -/
def Tenure.terms? : Tenure → Option Terms
  | .called start => some { settings := start.settings, workspace := start.workspace }
  | .held c _ _ => some c.terms
  | _ => none

/-- What an errand of the server task does about the terms. -/
def Errand.give (t : Option Terms) : Errand → Option Terms
  | .launch start => some { settings := start.settings, workspace := start.workspace }
  | .command c => t.map (·.after c)
  | _ => t

/-- The terms the coordinator was given last: what it works by once it has obeyed the commands that
wait for it and those the server task has still to send. -/
def Service.terms? (x : Service) : Option Terms :=
  x.errands.foldl Errand.give (x.commands.foldl (fun t c => t.map (·.after c)) x.tenure.terms?)

theorem foldl_give_commands (cs : List Command) (t : Terms) :
    ((cs.map Action.command).flatMap Action.errands).foldl Errand.give (some t) =
      some (cs.foldl Terms.after t) := by
  induction cs generalizing t with
  | nil => rfl
  | cons c cs ih => exact ih (t.after c)

variable {server : Server} {frame : Json} {st : Stage} {t : Option Terms}

/-- If the coordinator was given the terms of the session before a frame, it is given those of the
session after it. -/
theorem terms_frame (hat : server.IsAt st)
    (hserver : ∀ x, server.session = some x → x.IsCurrent s ∧ t = some (x.terms s))
    (hy : (server.handle s frame).1.session = some y) :
    y.IsCurrent s ∧
      ((server.handle s frame).2.1.flatMap Action.errands).foldl Errand.give t = some (y.terms s) := by
  by_cases hnotice : ∃ m, isNotice frame m = true ∧ m ≠ "exit"
  · obtain ⟨m, hn, hm⟩ := hnotice
    rw [handle_notification (ofFrame?_notification hn) hm, notify] at hy ⊢
    cases hx : server.session with
    | none =>
      rw [hx] at hy
      cases hx.symm.trans hy
    | some x =>
      obtain ⟨hcurrent, rfl⟩ := hserver x hx
      rw [hx, Option.bind_some] at hy
      rw [Option.bind_some]
      cases hnew : x.notice? s m ((frame.get? "params").getD .null) with
      | none =>
        rw [hnew] at hy
        obtain rfl := Option.some.inj (hx.symm.trans hy)
        exact ⟨hcurrent, rfl⟩
      | some r =>
        obtain ⟨z, actions⟩ := r
        rw [hnew] at hy
        obtain rfl := Option.some.inj hy
        obtain ⟨hcurrent', cs, rfl, hterms⟩ := terms_notice? hcurrent hnew
        exact ⟨hcurrent', (foldl_give_commands cs _).trans (congrArg some hterms)⟩
  · have h := handled (s := s) hat frame
    rcases hh : server.handle s frame with ⟨server', as, exit⟩
    rw [hh] at h hy
    cases h with
    | refused | ignored | shown | left => exact hserver y hy
    | welcomed hq hm hp =>
      obtain rfl := Option.some.inj hy
      exact ⟨isCurrent_begin _, rfl⟩
    | dismissed => cases hy
    | told hn hm => exact absurd ⟨_, hn, hm⟩ hnotice

/-- The coordinator has been given the terms of the session, and the session is current. -/
structure Coherent (s : Surroundings) (x : Service) : Prop where
  current : ∀ session, x.server.session = some session → session.IsCurrent s
  given : x.ending = none → ∀ session, x.server.session = some session →
    x.terms? = some (session.terms s)

section Steps

variable {x y : Service} {es : List Errand}

theorem Sound.idle_or_working {session : Session} (h : Sound x) (hn : x.ending = none)
    (hs : x.server.session = some session) : x.Idle ∨ x.Working := by
  have hserving : stage x.heard = .serving := by
    have hat := h.isAt
    cases hstage : stage x.heard with
    | serving => rfl
    | waiting =>
      rw [hstage] at hat
      rw [show x.server = {} from hat] at hs
      cases hs
    | closing =>
      rw [hstage] at hat
      rw [show x.server = { isShutDown := true } from hat] at hs
      cases hs
  have hagenda := h.agenda
  generalize x.errands = es at hagenda
  cases hagenda with
  | reading ho | replying ho | welcomed ho | commanding ho => exact .inr (ho.working hserving)
  | welcoming hn hs hi => exact .inl hi
  | stopping hl hw => exact .inr hw
  | joining hl =>
    cases hl with
    | response hn' hclosing => cases hserving.symm.trans hclosing
    | dismissal hn' => exact absurd hn hn'
  | answering hn' hclosing => cases hserving.symm.trans hclosing
  | dismissing hn' => exact absurd hn hn'
  | dismissed hn' => exact absurd hn hn'

theorem Sound.idle_of_launch {start : Launch} (h : Sound x) (he : x.errands = .launch start :: es) :
    x.Idle := by
  have hagenda := h.agenda
  rw [he] at hagenda
  cases hagenda with
  | welcoming hn hs hi => exact hi
  | commanding ho hs hall => exact absurd hall (not_commands fun _ => Errand.noConfusion)

theorem Coherent.of_terms (h : Coherent s x) (hserver : y.server = x.server)
    (hending : y.ending = x.ending) (hterms : y.terms? = x.terms?) : Coherent s y := by
  refine ⟨fun session hs => h.current session (hserver ▸ hs), fun hn session hs => ?_⟩
  rw [hterms]
  exact h.given (hending ▸ hn) session (hserver ▸ hs)

theorem Coherent.read (h : Coherent s x) (hsound : Sound x) (he : x.errands = [])
    (hn : x.ending = none) (frame : Json) : Coherent s (x.read s frame) := by
  have hserver : ∀ session, x.server.session = some session →
      session.IsCurrent s ∧ x.terms? = some (session.terms s) :=
    fun session hs => ⟨h.current session hs, h.given hn session hs⟩
  have hframe : ∀ y, (x.server.handle s frame).1.session = some y → y.IsCurrent s ∧
      ((x.server.handle s frame).2.1.flatMap Action.errands).foldl Errand.give x.terms? =
        some (y.terms s) := fun _ => terms_frame hsound.isAt hserver
  rcases hh : x.server.handle s frame with ⟨server, as, exit⟩
  rw [hh] at hframe
  rw [Service.read, hh]
  refine ⟨fun session hs => (hframe session hs).1, fun hopen session hs => ?_⟩
  obtain rfl : exit = none := Option.map_eq_none_iff.mp hopen
  have hterms := (hframe session hs).2
  rw [Service.terms?, he, List.foldl_nil] at hterms
  have herrands : as.flatMap Action.errands ++
      (if (none : Option Exit).isSome then farewell server else []) = as.flatMap Action.errands :=
    List.append_nil _
  exact (congrArg (List.foldl Errand.give _) herrands).trans hterms

theorem Coherent.step {o : Origin} (h : Coherent s x) (hsound : Sound x) (hs : Step s o x y) :
    Coherent s y := by
  cases hs with
  | read frame he hn => exact h.read hsound he hn frame
  | cut how he hn hh => exact ⟨h.current, nofun⟩
  | launch he =>
    refine h.of_terms rfl rfl ?_
    rw [Service.terms?, Service.terms?, he, (hsound.idle_of_launch he).2]
    rfl
  | command he hr =>
    refine h.of_terms rfl rfl ?_
    rw [Service.terms?, Service.terms?, he, List.foldl_append]
    rfl
  | join he | send he | dismiss he =>
    refine h.of_terms rfl rfl ?_
    rw [Service.terms?, Service.terms?, he]
    rfl
  | @start _ start ht =>
    refine h.of_terms rfl rfl ?_
    rw [Service.terms?, Service.terms?, ht, Tenure.terms?, Tenure.terms?, start.terms_coordinator]
  | tell ht =>
    refine h.of_terms rfl rfl ?_
    rw [Service.terms?, Service.terms?, ht]
    rfl
  | obey ht hs hm =>
    refine h.of_terms rfl rfl ?_
    rw [Service.terms?, Service.terms?, ht, hm, Tenure.hearing, Tenure.terms?,
      Coordinator.terms_handle hs]
    rfl
  | @hear _ c h' m ht hs hm hc =>
    refine h.of_terms rfl rfl ?_
    rw [Service.terms?, Service.terms?, ht, Tenure.hearing, Tenure.terms?,
      Coordinator.terms_handle hs]
    cases m with
    | command command => exact absurd rfl (hc command)
    | elapsed url ticket => rfl
    | finished run result => rfl
  | retire ht hs =>
    refine ⟨h.current, fun hn session hsession => ?_⟩
    -- a coordinator that has stopped is not one that the session still tells of settings
    obtain hidle | hworking := hsound.idle_or_working hn hsession
    · cases ht.symm.trans hidle.1
    · have hobeys := hworking.1
      rw [ht, Tenure.Obeys, hs] at hobeys
      cases hobeys.1
  | «return» | take | put | leave | fetch | write | close => exact ⟨h.current, h.given⟩

theorem Serving.isCoherent (hx : Serving s x) : Coherent s x := by
  induction hx with
  | begun =>
    have hnone : ({} : Service).server.session = none := rfl
    exact ⟨fun _ hs => absurd (hnone.symm.trans hs) nofun,
      fun _ _ hs => absurd (hnone.symm.trans hs) nofun⟩
  | step hx hs ih => exact ih.step hx.sound hs

theorem session_read_folders {session : Session} {c : FolderChange}
    (hs : x.server.session = some session)
    (hf : isNotice frame "workspace/didChangeWorkspaceFolders" = true)
    (hc : foldersRecord.read {} ((frame.get? "params").getD .null) = .ok c) :
    ∃ after, (x.read s frame).server.session = some after ∧
      after.workspace = changeRoots session.workspace c := by
  rw [Service.read, handle_notification (ofFrame?_notification hf) (by decide), notify, hs,
    Option.bind_some, Session.notice?, hc]
  exact ⟨_, rfl, rfl⟩

/-- While the server serves a session, the coordinator was last given the roots of the session and
the settings its sources come to, each file read anew, and it works by them once it has obeyed what
it was sent. A change of folders leaves the roots not removed in their order and puts behind them
those added that are not there, each once; what it removes and adds is added. -/
theorem coherent {session : Session} (hx : Serving s x) (hn : x.ending = none)
    (hs : x.server.session = some session) :
    let sources : Sources :=
      { userFile := s.userFile.bind (Layer.load? s.files)
        client := session.sources.client
        workspace := session.workspace.head?.bind fun root =>
          Layer.load? s.files (Layer.workspaceFile root) }
    let settings := (sources.resolve s.env session.trusted).settings
    x.terms? = some { settings, workspace := session.workspace } ∧
      (∀ c heard events, x.tenure = .held c heard events → x.errands = [] → x.commands = [] →
        c.settings = settings ∧ c.workspace = session.workspace) ∧
      ∀ frame c, isNotice frame "workspace/didChangeWorkspaceFolders" = true →
        foldersRecord.read {} ((frame.get? "params").getD .null) = .ok c →
        let removed := c.removed.filterMap pathOfUrl?
        let added := c.added.filterMap pathOfUrl?
        let kept := session.workspace.filter fun root => !removed.any root.same
        let fresh := (added.filter fun p => !kept.any p.same).eraseDupsBy Path.same
        ∃ after, (x.read s frame).server.session = some after ∧ after.workspace = kept ++ fresh ∧
          ∀ p ∈ added, removed.any p.same = true → ∃ q ∈ fresh, p.same q = true := by
  intro sources settings
  have hcoherent := hx.isCoherent
  have hcurrent := hcoherent.current session hs
  have hsettings : session.settings s = settings := by
    rw [Session.settings, hcurrent.sources_eq]
  have hterms : x.terms? = some { settings, workspace := session.workspace } := by
    rw [hcoherent.given hn session hs, Session.terms, hsettings]
  refine ⟨hterms, fun c heard events ht he hm => ?_, fun frame c hf hc => ?_⟩
  · rw [Service.terms?, he, hm, ht, List.foldl_nil, List.foldl_nil, Tenure.terms?] at hterms
    exact Terms.mk.inj (Option.some.inj hterms)
  · obtain ⟨after, hafter, hroots⟩ := session_read_folders hs hf hc
    obtain ⟨hchange, hadded⟩ := changeRoots_eq session.workspace c
    exact ⟨after, hafter, hroots.trans hchange, hadded⟩

/-- Surroundings with a workspace whose file turns checking off. -/
def quietWorkspace : Surroundings where
  files := ({} : FileTree).add (FileTree.placeOf (.ofString "/b/.github/flowlint.toml"))
    (.file (Text.Utf8.ofString "enabled = false") false)

/-- The folder of that workspace is taken out and put in at once. -/
def quietFolder : Json :=
  let folder := Json.object [("uri", .string "file:///b")]
  notification "workspace/didChangeWorkspaceFolders" (some (Json.object
    [("event", Json.object [("added", .array [folder]), ("removed", .array [folder])])]))

/-- An editor opens that workspace. -/
theorem coherent_of_quietFolder :
    ∃ x session c heard, Serving quietWorkspace x ∧ x.ending = none ∧
      x.server.session = some session ∧
      x.tenure = .held c heard [] ∧ x.errands = [] ∧ x.commands = [] ∧
      c.settings.enabled = false ∧ c.workspace = [.ofString "/b"] ∧
      ∃ after, (x.read quietWorkspace quietFolder).server.session = some after ∧
        after.workspace = [.ofString "/b"] := by
  have h : Serving quietWorkspace _ := .step .begun (.read (Json.object
    [("id", Json.nat 1), ("method", .string "initialize"),
      ("params", Json.object [("rootUri", .string "file:///b")])]) rfl rfl)
  have h := h.step (.launch rfl)
  have h := h.step (.start rfl)
  have h := h.step (.send rfl (by decide))
  have h := h.step (.tell rfl)
  obtain ⟨-, hheld, hfolders⟩ := coherent h rfl rfl
  obtain ⟨hsettings, hworkspace⟩ := hheld _ _ _ rfl rfl rfl
  obtain ⟨after, hafter, hroots, -⟩ := hfolders quietFolder
    { added := ["file:///b"], removed := ["file:///b"] } rfl rfl
  refine ⟨_, _, _, _, h, rfl, rfl, rfl, rfl, rfl, ?_, ?_, after, hafter, hroots.trans ?_⟩
  · rw [hsettings]
    decide +kernel
  · rw [hworkspace]
    decide +kernel
  · decide +kernel

end Steps

end Server

end WorkflowLint

import WorkflowLint.Proofs.Server.Soundness
/-!
# The tasks do not wait in vain

Queues with little room and tasks that wait for each other could keep a server from its end. They
do not: left alone, the tasks come to rest (`wellFounded_inside`), since each step takes something
off what is to be done or brings an event or a frame closer to the editor. And tasks at rest have
done everything: the server task has no errand left, nothing is on its way, and serving has returned
if it was to end (`IsStill.errands`, `IsStill.returned`).
-/

namespace WorkflowLint

namespace Server

/-! ## The tasks come to rest -/

/-- How many changes of its tenure the coordinator has ahead. -/
def Tenure.rank : Tenure → Nat
  | .vacant => 0
  | .called _ => 2
  | .held _ _ _ => 1
  | .over _ => 0

namespace Service

/-- What the server task and the coordinator have to do. An errand can put a command in its place,
or launch the coordinator. -/
def labour (x : Service) : Nat :=
  3 * x.errands.length + x.commands.length + x.tenure.rank + (!x.hasReturned).toNat

/-- How far events and frames are from the editor. -/
def burden (x : Service) : Nat :=
  5 * x.tenure.untold.length + 4 * x.events.length + 3 * x.carrier.hand.toList.length +
    (!x.carrier.ended).toNat + 2 * x.outbox.length + x.writer.hand.toList.length

/-- The tasks can not go on alone. -/
def IsStill (s : Surroundings) (x : Service) : Prop := ∀ y, ¬ Step s .inside x y

/-- Once serving is to end, the writer is to be dismissed, or was. -/
def Dismissing (x : Service) : Prop :=
  x.ending ≠ none → .dismiss ∈ x.errands ∨ .dismissal ∈ x.outbox ∨ x.writer.ended = true

end Service

variable {s : Surroundings} {o : Origin} {x y : Service}

theorem length_frameOf?_le (number : Nat) (e : Event) :
    (frameOf? number e).toList.length ≤ 1 := by
  cases frameOf? number e <;> simp

theorem Step.descends (hs : Step s .inside x y) :
    y.labour < x.labour ∨ y.labour = x.labour ∧ y.burden < x.burden := by
  cases hs with
  | launch he =>
    left
    simp only [Service.labour, he, List.length_cons, Tenure.rank]
    omega
  | command he hr =>
    left
    simp only [Service.labour, he, List.length_cons, List.length_append, List.length_nil]
    omega
  | join he | send he | dismiss he =>
    left
    simp only [Service.labour, he, List.length_cons]
    omega
  | «return» he hn hw hr =>
    left
    simp [Service.labour, hr]
  | start ht | retire ht =>
    left
    simp only [Service.labour, ht, Tenure.rank]
    omega
  | obey ht hs hm =>
    -- what it tells may be long, but the command is gone
    left
    simp only [Service.labour, ht, hm, Tenure.rank, Tenure.hearing, List.length_cons]
    omega
  | tell ht =>
    right
    refine ⟨by simp only [Service.labour, ht, Tenure.rank], ?_⟩
    simp only [Service.burden, ht, Tenure.untold, List.length_cons, List.length_append,
      List.length_nil]
    omega
  | @take _ e es hh hc he =>
    right
    refine ⟨rfl, ?_⟩
    have hle := length_frameOf?_le x.carrier.number e
    simp only [Service.burden, he, hh, List.length_cons, Option.toList_none, List.length_nil]
    omega
  | put hh hr =>
    right
    refine ⟨rfl, ?_⟩
    simp only [Service.burden, hh, Option.toList_none, Option.toList_some, List.length_cons,
      List.length_append, List.length_nil]
    omega
  | leave hh hc =>
    right
    refine ⟨rfl, ?_⟩
    simp [Service.burden, hc]
  | fetch hh hw ho =>
    right
    refine ⟨rfl, ?_⟩
    simp only [Service.burden, hh, ho, Option.toList_none, Option.toList_some, List.length_cons,
      List.length_nil]
    omega
  | write hh =>
    right
    refine ⟨rfl, ?_⟩
    simp only [Service.burden, hh, Option.toList_none, Option.toList_some, List.length_cons,
      List.length_nil]
    omega
  | close hh hw ho =>
    right
    refine ⟨rfl, ?_⟩
    simp only [Service.burden, ho, List.length_cons]
    omega

theorem wellFounded_inside (s : Surroundings) :
    WellFounded fun y x => Step s .inside x y := by
  have hlex : WellFounded (Prod.Lex (· < · : Nat → Nat → Prop) (· < · : Nat → Nat → Prop)) :=
    (Prod.lex Nat.lt_wfRel Nat.lt_wfRel).wf
  refine Subrelation.wf ?_ (InvImage.wf (fun x : Service => (x.labour, x.burden)) hlex)
  intro y x hs
  exact Prod.lex_def.mpr hs.descends

/-! ## The dismissal of the writer -/

theorem dismiss_mem_farewell (server : Server) : .dismiss ∈ farewell server :=
  List.mem_append_right _ List.mem_cons_self

theorem Service.Dismissing.step (h : x.Dismissing) (hs : Step s o x y) : y.Dismissing := by
  have hrest : ∀ {e : Errand} {es : List Errand}, x.errands = e :: es → e ≠ .dismiss →
      x.ending ≠ none → .dismiss ∈ es ∨ .dismissal ∈ x.outbox ∨ x.writer.ended = true := by
    intro e es he hne hn
    obtain hmem | hrest := h hn
    · rw [he] at hmem
      exact .inl ((List.mem_cons.mp hmem).resolve_left fun heq => hne heq.symm)
    · exact .inr hrest
  cases hs with
  | read frame he hn' =>
    -- only `exit` ends serving, and then the errands end with the dismissal
    obtain ⟨⟨server, as, exit⟩, hh⟩ : ∃ r, x.server.handle s frame = r := ⟨_, rfl⟩
    rw [Service.read, hh]
    intro hn
    cases exit with
    | none => exact absurd rfl hn
    | some e => exact .inl (List.mem_append_right _ (dismiss_mem_farewell server))
  | cut => exact fun _ => .inl (dismiss_mem_farewell _)
  | launch he => exact hrest he Errand.noConfusion
  | command he => exact hrest he Errand.noConfusion
  | join he => exact hrest he Errand.noConfusion
  | send he =>
    intro hn
    exact (hrest he Errand.noConfusion hn).imp_right (Or.imp_left (List.mem_append_left _))
  | dismiss => exact fun _ => .inr (.inl (List.mem_append_right _ List.mem_cons_self))
  | put => exact fun hn => (h hn).imp_right (Or.imp_left (List.mem_append_left _))
  | fetch hh hw ho =>
    intro hn
    refine (h hn).imp_right (Or.imp_left fun hmem => ?_)
    rw [ho] at hmem
    exact (List.mem_cons.mp hmem).resolve_left Outgoing.noConfusion
  | close => exact fun _ => .inr (.inr rfl)
  | «return» | start | tell | obey | hear | retire | take | leave | write => exact h

theorem Serving.dismissing (hx : Serving s x) : x.Dismissing := by
  induction hx with
  | begun => exact fun hn => absurd rfl hn
  | step _ hs ih => exact ih.step hs

/-! ## Tasks at rest -/

namespace Service.IsStill

theorem writer (hx : x.IsStill s) : x.writer.hand = none := by
  cases hh : x.writer.hand with
  | none => rfl
  | some frame => exact absurd (.write hh) (hx _)

theorem outbox (hx : x.IsStill s) (hsound : Sound x) : x.outbox = [] := by
  cases ho : x.outbox with
  | nil => rfl
  | cons outgoing out =>
    have hended : x.writer.ended = false := by
      cases hsound.queue with
      | taking _ _ hw => exact hw
      | dismissed _ _ hw => exact hw
      | closed ho' =>
        rw [ho] at ho'
        cases ho'
    cases outgoing with
    | frame frame => exact absurd (.fetch hx.writer hended ho) (hx _)
    | dismissal => exact absurd (.close hx.writer hended ho) (hx _)

theorem outbox_room (hx : x.IsStill s) (hsound : Sound x) : x.outbox.length < outboxRoom := by
  rw [hx.outbox hsound]
  decide

theorem hand (hx : x.IsStill s) (hsound : Sound x) : x.carrier.hand = none := by
  cases hh : x.carrier.hand with
  | none => rfl
  | some frame => exact absurd (.put hh (hx.outbox_room hsound)) (hx _)

theorem untold (hx : x.IsStill s) : x.tenure.untold = [] := by
  cases ht : x.tenure with
  | vacant | called | «over» => rfl
  | held c h es =>
    cases es with
    | nil => rfl
    | cons e es => exact absurd (.tell ht) (hx _)

theorem events (hx : x.IsStill s) (hsound : Sound x) : x.events = [] := by
  cases he : x.events with
  | nil => rfl
  | cons e es =>
    cases hc : x.carrier.ended with
    | false => exact absurd (.take (hx.hand hsound) hc he) (hx _)
    | true =>
      rw [(hsound.left hc).2.1] at he
      cases he

theorem commands (hx : x.IsStill s) (ho : x.tenure.Obeys) : x.commands = [] := by
  have huntold := hx.untold
  cases ht : x.tenure with
  | vacant | «over» =>
    rw [ht] at ho
    exact ho.elim
  | called => exact absurd (.start ht) (hx _)
  | held c h es =>
    rw [ht] at ho huntold
    obtain rfl : es = [] := huntold
    cases hm : x.commands with
    | nil => rfl
    | cons m ms => exact absurd (.obey ht ho.1 hm) (hx _)

theorem spent (hx : x.IsStill s) (hsound : Sound x) (hs : x.Stopping) : x.Spent := by
  obtain ⟨ho, cs, hcommands, -⟩ | ⟨hstopped, hcommands⟩ := hs
  · rw [hx.commands ho] at hcommands
    cases cs <;> cases hcommands
  · have huntold := hx.untold
    cases ht : x.tenure with
    | vacant | called =>
      rw [ht] at hstopped
      exact hstopped.elim
    | held c h es =>
      rw [ht] at hstopped huntold
      obtain rfl : es = [] := huntold
      exact absurd (.retire ht hstopped) (hx _)
    | «over» h =>
      cases hc : x.carrier.ended with
      | false => exact absurd (.leave (hx.hand hsound) hc (hx.events hsound) ht) (hx _)
      | true => exact ⟨⟨h, ht⟩, hcommands, hc⟩

theorem errands (hx : x.IsStill s) (hsound : Sound x) : x.errands = [] := by
  have hroom : x.Working → x.commands.length < commandRoom := by
    intro hw
    rw [hx.commands hw.1]
    decide
  have hsend : ∀ {frame es}, x.errands ≠ .send frame :: es :=
    fun he => hx _ (.send he (hx.outbox_room hsound))
  have hagenda := hsound.agenda
  cases he : x.errands with
  | nil => rfl
  | cons e es =>
    rw [he] at hagenda
    cases hagenda with
    | replying | welcomed | answering => exact absurd he hsend
    | welcoming => exact absurd (.launch he) (hx _)
    | commanding ho hs hall =>
      obtain ⟨c, rfl, -⟩ := hall e List.mem_cons_self
      exact absurd (.command he (hroom (ho.working hs))) (hx _)
    | stopping hl hw => exact absurd (.command he (hroom hw)) (hx _)
    | joining hl hs =>
      -- `shutdown` was the last command, so the coordinator is gone
      obtain ⟨⟨h, hover⟩, -, hended⟩ := hx.spent hsound hs
      exact absurd (.join he hover hended) (hx _)
    | dismissing => exact absurd (.dismiss he (hx.outbox_room hsound)) (hx _)

theorem returned (hx : x.IsStill s) (hserving : Serving s x) (hn : x.ending ≠ none) :
    x.hasReturned = true := by
  have hsound := hserving.sound
  have hended : x.writer.ended = true := by
    obtain hmem | hmem | hended := hserving.dismissing hn
    · rw [hx.errands hsound] at hmem
      cases hmem
    · rw [hx.outbox hsound] at hmem
      cases hmem
    · exact hended
  obtain ⟨how, hhow⟩ := Option.ne_none_iff_exists'.mp hn
  cases hr : x.hasReturned with
  | true => rfl
  | false => exact absurd (.return (hx.errands hsound) hhow hended hr) (hx _)

end Service.IsStill

end Server

end WorkflowLint

import WorkflowLint.Proofs.Coordinator.LatestRun
import WorkflowLint.Proofs.Coordinator.Renumber
import WorkflowLint.Proofs.Coordinator.Turns
import Mathlib.Data.List.Nodup
/-!
# Documents do not interfere

What a coordinator does about a document depends on the messages that are for the document or for
all, and on nothing else: without the documents and messages of others, and without turning from one
document to another, it does the same, with other tickets (`Launch.isolated`).

Two coordinators are `Alike` about a document when one has the clerk and the file of the other with
other tickets. A message that is not for the document leaves them alike, as the clerk at most waits
(`Alike.elsewhere`); a message that is for it, and the same message with the other tickets, is a
turn of both clerks (`Alike.turn`). The tickets handed out just then extend the numbering.
-/

namespace WorkflowLint

def Entry.named? : Entry → Option Ticket
  | .heard m => m.named?
  | .did e => e.named?

/-- A numbering goes on from another: the tickets `own` keep their numbers, and the tickets from `n`
go with those from `n'`. -/
structure Extends (σ τ : Ticket → Ticket) (own : List Ticket) (n n' : Nat) : Prop where
  old : ∀ t ∈ own, τ t = σ t
  new : ∀ t, n ≤ t.number → τ t = ⟨t.number - n + n'⟩

namespace Extends

variable {σ τ : Ticket → Ticket} {own : List Ticket} {n n' : Nat}

theorem exists_of_lt (σ : Ticket → Ticket) (hown : ∀ t ∈ own, t.number < n) (n' : Nat) :
    ∃ τ, Extends σ τ own n n' :=
  ⟨fun t => if t.number < n then σ t else ⟨t.number - n + n'⟩,
    fun t ht => if_pos (hown t ht), fun _ ht => if_neg (Nat.not_lt.mpr ht)⟩

theorem next (hτ : Extends σ τ own n n') : τ ⟨n⟩ = ⟨n'⟩ := by
  rw [hτ.new ⟨n⟩ (Nat.le_refl n), Nat.sub_self, Nat.zero_add]

theorem number_succ (hτ : Extends σ τ own n n') : (τ ⟨n + 1⟩).number = (τ ⟨n⟩).number + 1 := by
  rw [hτ.next, hτ.new ⟨n + 1⟩ (Nat.le_succ n)]
  show n + 1 - n + n' = n' + 1
  omega

theorem increasing (hτ : Extends σ τ own n n') {fresh : List Ticket}
    (hown : ∀ t ∈ own, t.number < n ∧ (σ t).number < n') (hfresh : ∀ t ∈ fresh, n ≤ t.number)
    (hσ : ∀ t ∈ own, ∀ t' ∈ own, t.number < t'.number → (σ t).number < (σ t').number) :
    ∀ t ∈ own ++ fresh, ∀ t' ∈ own ++ fresh, t.number < t'.number →
      (τ t).number < (τ t').number := by
  intro t ht t' ht' hlt
  rcases List.mem_append.mp ht with ht | ht <;> rcases List.mem_append.mp ht' with ht' | ht'
  · rw [hτ.old t ht, hτ.old t' ht']
    exact hσ t ht t' ht' hlt
  · rw [hτ.old t ht, hτ.new t' (hfresh t' ht')]
    exact Nat.lt_of_lt_of_le (hown t ht).2 (Nat.le_add_left n' _)
  · have hle := hfresh t ht
    have hlt' := (hown t' ht').1
    omega
  · rw [hτ.new t (hfresh t ht), hτ.new t' (hfresh t' ht')]
    have hle := hfresh t ht
    show t.number - n + n' < t'.number - n + n'
    omega

end Extends

/-! ## Numberings that agree -/

section Congr

variable {σ τ : Ticket → Ticket} {own : List Ticket}

theorem Message.renumber_congr {m : Message} (hm : ∀ t ∈ m.named?, σ t = τ t) :
    m.renumber σ = m.renumber τ := by
  cases m with
  | command => rfl
  | elapsed u t => exact congrArg (Message.elapsed u) (hm t rfl)
  | finished run result =>
    simp only [renumber, Run.renumber, hm run.ticket rfl]

theorem Effect.renumber_congr {e : Effect} (he : ∀ t ∈ e.named?, σ t = τ t) :
    e.renumber σ = e.renumber τ := by
  cases e with
  | emit => rfl
  | start run => simp only [renumber, Run.renumber, he run.ticket rfl]
  | cancelRun t | startTimer u t delay | stopTimer t => simp only [renumber, he t rfl]

theorem Entry.renumber_congr {e : Entry} (he : ∀ t ∈ e.named?, σ t = τ t) :
    e.renumber σ = e.renumber τ := by
  cases e with
  | heard m => exact congrArg Entry.heard (Message.renumber_congr he)
  | did e => exact congrArg Entry.did (Effect.renumber_congr he)

theorem OpenDocument.renumber_congr {d : OpenDocument} (hd : ∀ t ∈ d.tickets, σ t = τ t) :
    d.renumber σ = d.renumber τ := by
  have hslot : ∀ {s : Slot}, (∀ t ∈ s.occupant.toList, σ t = τ t) →
      s.renumber σ = s.renumber τ := by
    intro s hs
    exact congrArg Slot.mk (Option.map_congr fun t ht => hs t (Option.mem_toList.mpr ht))
  obtain ⟨hrun, hpause⟩ := List.forall_mem_append.mp hd
  rw [renumber, renumber, hslot hrun, hslot hpause]

end Congr

/-! ## Files with other tickets -/

namespace History

variable {σ : Ticket → Ticket} {u : Url} {h v : History}

theorem ticket?_renumber (e : Entry) : (e.renumber σ).ticket? u = (e.ticket? u).map σ := by
  cases e with
  | heard => rfl
  | did e =>
    cases e with
    | start run =>
      by_cases hu : run.url = u <;>
        simp [Entry.renumber, Effect.renumber, Entry.ticket?, Effect.ticket?, Run.renumber, hu]
    | startTimer w t delay =>
      by_cases hu : w = u <;>
        simp [Entry.renumber, Effect.renumber, Entry.ticket?, Effect.ticket?, hu]
    | _ => rfl

theorem tickets_map_renumber (v : History) :
    tickets u (v.map (Entry.renumber σ)) = (tickets u v).map σ := by
  rw [tickets, List.filterMap_map, tickets, List.map_filterMap]
  exact List.filterMap_congr fun e _ => ticket?_renumber e

theorem filterMap_file {α : Type} {f : Entry → Option α}
    (hf : ∀ e, e.isFor u (h.tickets u) = false → f e = none) :
    (h.file u).filterMap f = h.filterMap f := by
  rw [file, List.filterMap_filter]
  refine List.filterMap_congr fun e _ => ?_
  split
  · rfl
  · rename_i hfor
    exact (hf e (by simpa using hfor)).symm

theorem mem_tickets_of_did {e : Effect} (he : .did e ∈ h.file u) :
    ∀ t ∈ e.named?, t ∈ h.tickets u := by
  intro t ht
  cases e with
  | emit => cases ht
  | start run =>
    obtain rfl : run.ticket = t := Option.some.inj ht
    obtain ⟨hrun, rfl⟩ := start_mem_file.mp he
    exact mem_tickets_of_start hrun
  | startTimer w t' delay =>
    obtain rfl : t' = t := Option.some.inj ht
    obtain ⟨htimer, rfl⟩ := startTimer_mem_file.mp he
    exact mem_tickets_of_timer (mem_timers htimer)
  | cancelRun t' =>
    obtain rfl : t' = t := Option.some.inj ht
    exact (cancelRun_mem_file.mp he).2
  | stopTimer t' =>
    obtain rfl : t' = t := Option.some.inj ht
    exact (stopTimer_mem_file.mp he).2

theorem tickets_file (u : Url) (h : History) : tickets u (h.file u) = tickets u h := by
  refine filterMap_file fun e hfor => ?_
  cases e with
  | heard => rfl
  | did e =>
    cases e with
    | start | startTimer => exact if_neg (by simpa [Entry.isFor, Effect.isFor] using hfor)
    | _ => rfl

theorem Admits.renumber {m : Message} (hm : v.Admits m) :
    Admits (v.map (Entry.renumber σ)) (m.renumber σ) := by
  cases m with
  | command => trivial
  | elapsed w t =>
    obtain ⟨delay, ht⟩ := exists_of_mem_timers hm
    have hmem : .did (.startTimer w (σ t) delay) ∈ v.map (Entry.renumber σ) :=
      List.mem_map.mpr ⟨_, ht, rfl⟩
    exact mem_timers hmem
  | finished run result => exact List.mem_map.mpr ⟨_, hm, rfl⟩

theorem mem_tickets_of_admits {m : Message} (hm : h.Admits m) (hu : m.isFor u = true) :
    ∀ t ∈ m.named?, t ∈ h.tickets u := by
  rintro t ht
  cases m with
  | command => cases ht
  | elapsed w t' =>
    obtain rfl : t' = t := Option.some.inj ht
    obtain rfl : w = u := by simpa [Message.isFor] using hu
    exact mem_tickets_of_timer hm
  | finished run result =>
    obtain rfl : run.ticket = t := Option.some.inj ht
    obtain rfl : run.url = u := by simpa [Message.isFor] using hu
    exact mem_tickets_of_start hm

end History

/-! ## Two coordinators -/

namespace Coordinator

/-- Two coordinators have the same clerk and the same file of a document, but for the tickets. -/
structure Alike (σ : Ticket → Ticket) (u : Url) (s s' : Coordinator × History) : Prop where
  kept : s.1.Kept s.2
  kept' : s'.1.Kept s'.2
  /-- The file names tickets of the document only. -/
  filed : ∀ e ∈ s.2.file u, ∀ t ∈ e.named?, t ∈ s.2.tickets u
  clerk : s'.1.clerk u = ((s.1.clerk u).renumber σ).wait s'.1.issued
  file : s'.2.file u = (s.2.file u).map (Entry.renumber σ)
  increasing : ∀ t ∈ s.2.tickets u, ∀ t' ∈ s.2.tickets u, t.number < t'.number →
    (σ t).number < (σ t').number

variable {σ : Ticket → Ticket} {u : Url} {s s' s'' : Coordinator × History} {m : Message}

theorem Rests.tickets (hs : Rests u s s') : s'.2.tickets u = s.2.tickets u := by
  rw [← History.tickets_file u s'.2, hs.file, History.tickets_file]

theorem Alike.tickets (ha : Alike σ u s s') : s'.2.tickets u = (s.2.tickets u).map σ := by
  rw [← History.tickets_file u s'.2, ha.file, History.tickets_map_renumber, History.tickets_file]

theorem Alike.injective (ha : Alike σ u s s') {t t' : Ticket} (ht : t ∈ s.2.tickets u)
    (ht' : t' ∈ s.2.tickets u) (heq : σ t = σ t') : t = t' := by
  rcases Nat.lt_trichotomy t.number t'.number with hlt | hsame | hgt
  · exact absurd (heq ▸ ha.increasing t ht t' ht' hlt) (Nat.lt_irrefl _)
  · cases t
    cases t'
    exact congrArg Ticket.mk hsame
  · exact absurd (heq ▸ ha.increasing t' ht' t ht hgt) (Nat.lt_irrefl _)

theorem Alike.rests (ha : Alike σ u s s') (hs : Rests u s s'') (hk : s''.1.Kept s''.2) :
    Alike σ u s'' s' where
  kept := hk
  kept' := ha.kept'
  filed := by
    rw [hs.file, hs.tickets]
    exact ha.filed
  clerk := by
    rw [hs.clerk]
    exact ha.clerk
  file := by rw [hs.file, ha.file]
  increasing := by
    rw [hs.tickets]
    exact ha.increasing

theorem Alike.rests' (ha : Alike σ u s s') (hs : Rests u s' s'') (hk : s''.1.Kept s''.2) :
    Alike σ u s s'' where
  kept := ha.kept
  kept' := hk
  filed := ha.filed
  clerk := by rw [hs.clerk, ha.clerk, Clerk.wait_wait]
  file := by rw [hs.file, ha.file]
  increasing := ha.increasing

theorem rests_hear (hk : s.1.Kept s.2) (hm : m.isFor u = false) : Rests u s (hear s m) := by
  obtain ⟨n, hn, hissued, hclerk, hfile⟩ := acts_hear hk u m
  rw [Clerk.handle_of_elsewhere hm] at hissued hclerk hfile
  rw [file_heard, hm] at hfile
  exact ⟨n, hn, hissued, hclerk, hfile.trans (by simp)⟩

theorem Alike.elsewhere (ha : Alike σ u s s') (hm : m.isFor u = false) :
    Alike σ u (hear s m) s' :=
  ha.rests (rests_hear ha.kept hm) (ha.kept.hear m)

theorem Alike.elsewhere' (ha : Alike σ u s s') (hm : m.isFor u = false) :
    Alike σ u s (hear s' m) :=
  ha.rests' (rests_hear ha.kept' hm) (ha.kept'.hear m)

theorem Alike.admits (ha : Alike σ u s s') (hu : m.isFor u = true) (hm : s.2.Admits m) :
    s'.2.Admits (m.renumber σ) := by
  rw [← History.admits_file ((m.isFor_renumber u).trans hu), ha.file]
  exact ((History.admits_file hu s.2).mpr hm).renumber

theorem mem_tickets_hear {t : Ticket} (ht : t ∈ s.2.tickets u) (m : Message) :
    t ∈ (hear s m).2.tickets u := by
  rw [hear, History.tickets_append]
  exact List.mem_append_left _ ht

theorem Alike.filed_hear (ha : Alike σ u s s') (hu : m.isFor u = true) (hm : s.2.Admits m) :
    ∀ e ∈ (hear s m).2.file u, ∀ t ∈ e.named?, t ∈ (hear s m).2.tickets u := by
  intro e he t ht
  cases e with
  | did e => exact History.mem_tickets_of_did he t ht
  | heard m' =>
    refine mem_tickets_hear ?_ m
    obtain ⟨he, hu'⟩ := History.mem_file.mp he
    rcases List.mem_append.mp he with hold | hnew
    · exact ha.filed _ (History.mem_file.mpr ⟨hold, hu'⟩) t ht
    · obtain rfl : m' = m := by simpa using hnew
      exact History.mem_tickets_of_admits hm hu t ht

section Turn

variable {τ : Ticket → Ticket} {n n' : Nat}

theorem Alike.wait (ha : Alike σ u s s') (hτ : Extends σ τ (s.2.tickets u) n n') :
    (s'.1.clerk u).wait n' = ((s.1.clerk u).wait n).renumber τ := by
  have hdocument : (s.1.clerk u).document.map (OpenDocument.renumber σ) =
      (s.1.clerk u).document.map (OpenDocument.renumber τ) := by
    refine Option.map_congr fun d hd => OpenDocument.renumber_congr fun t ht => (hτ.old t ?_).symm
    exact ha.kept.held u t (by rwa [Clerk.tickets_of_document hd])
  rw [ha.clerk, Clerk.wait_wait, Clerk.renumber, Clerk.renumber, hdocument]
  exact congrArg (Clerk.mk _ _ · _ _ _) (congrArg Ticket.number hτ.next).symm

theorem Alike.handle (ha : Alike σ u s s') (hτ : Extends σ τ (s.2.tickets u) n n')
    (hnamed : ∀ t ∈ m.named?, t ∈ s.2.tickets u) :
    ((s'.1.clerk u).wait n').handle u (m.renumber τ) =
      Clerk.renumbered τ (((s.1.clerk u).wait n).handle u m) := by
  have hfollows : ((s.1.clerk u).wait n).Follows τ := hτ.number_succ
  rw [ha.wait hτ]
  refine Clerk.handle_renumber hfollows (fun t ht t' ht' heq => ?_) u
  have hheld := ha.kept.held u t' ht'
  rw [hτ.old t' hheld, hτ.old t (hnamed t ht)] at heq
  exact ha.injective hheld (hnamed t ht) heq

/-- **A message for the document is a turn of both clerks.** -/
theorem Alike.turn (ha : Alike σ u s s') (hu : m.isFor u = true) (hm : s.2.Admits m) :
    ∃ τ, (∀ t ∈ s.2.tickets u, τ t = σ t) ∧ Alike τ u (hear s m) (hear s' (m.renumber τ)) := by
  obtain ⟨n, hn, hissued, hclerk, hfile⟩ := acts_hear ha.kept u m
  obtain ⟨n', hn', hissued', hclerk', hfile'⟩ := acts_hear ha.kept' u (m.renumber σ)
  have hown : ∀ t ∈ s.2.tickets u, t.number < n ∧ (σ t).number < n' := fun t ht =>
    ⟨Nat.lt_of_lt_of_le (ha.kept.lt_issued ht) hn,
      Nat.lt_of_lt_of_le (ha.kept'.lt_issued (ha.tickets ▸ List.mem_map_of_mem ht)) hn'⟩
  obtain ⟨τ, hτ⟩ := Extends.exists_of_lt σ (fun t ht => (hown t ht).1) n'
  have hnamed := History.mem_tickets_of_admits hm hu
  -- the message names old tickets, so the new numbering says the same of it
  have hm' : m.renumber σ = m.renumber τ :=
    Message.renumber_congr fun t ht => (hτ.old t (hnamed t ht)).symm
  rw [hm'] at hissued' hclerk' hfile'
  rw [ha.handle hτ hnamed] at hissued' hclerk' hfile'
  rw [file_heard, hu, if_pos rfl] at hfile
  rw [file_heard, m.isFor_renumber u, hu, if_pos rfl] at hfile'
  have hd := Clerk.deals_handle u m ((s.1.clerk u).wait n)
  generalize ((s.1.clerk u).wait n).handle u m = y
    at hissued hclerk hfile hd hissued' hclerk' hfile'
  have htickets : (hear s m).2.tickets u = s.2.tickets u ++ Effect.handed u y.2 := by
    rw [← History.tickets_file u (hear s m).2, hfile, History.tickets_append,
      History.tickets_append, History.tickets_file, History.tickets_heard, List.append_nil,
      History.tickets_did]
  refine ⟨τ, hτ.old, ha.kept.hear m, ha.kept'.hear _, ha.filed_hear hu hm, ?_, ?_, ?_⟩
  · rw [hclerk', hclerk]
    rfl
  · have hfiled : (s.2.file u).map (Entry.renumber σ) = (s.2.file u).map (Entry.renumber τ) :=
      List.map_congr_left fun e he => Entry.renumber_congr fun t ht =>
        (hτ.old t (ha.filed e he t ht)).symm
    rw [hfile', hfile, ha.file, hfiled, List.map_append, List.map_append, List.map_map]
    show _ ++ (y.2.map (Effect.renumber τ)).map Entry.did = _
    rw [List.map_map]
    rfl
  · rw [htickets]
    exact hτ.increasing hown (fun t ht => (hd.handed t ht).1) ha.increasing

end Turn

theorem Alike.foldl {ms : List Message} (ha : Alike σ u s s') (hms : Admissible s ms) :
    ∃ τ, (∀ t ∈ s.2.tickets u, τ t = σ t) ∧
      Admissible s' ((ms.filter (·.isFor u)).map (Message.renumber τ)) ∧
      Alike τ u (ms.foldl hear s)
        (((ms.filter (·.isFor u)).map (Message.renumber τ)).foldl hear s') := by
  induction ms generalizing σ s s' with
  | nil => exact ⟨σ, fun _ _ => rfl, trivial, ha⟩
  | cons m ms ih =>
    obtain ⟨hm, hms⟩ := hms
    cases hu : m.isFor u with
    | false =>
      obtain ⟨τ, hτ, hrest⟩ := ih (ha.elsewhere hu) hms
      rw [List.filter_cons_of_neg (by simp [hu])]
      exact ⟨τ, fun t ht => hτ t (mem_tickets_hear ht m), hrest⟩
    | true =>
      obtain ⟨ρ, hρ, hturn⟩ := ha.turn hu hm
      obtain ⟨τ, hτ, hmessages, hrest⟩ := ih hturn hms
      have hτ' : ∀ t ∈ s.2.tickets u, τ t = ρ t := fun t ht => hτ t (mem_tickets_hear ht m)
      have hnamed := History.mem_tickets_of_admits hm hu
      have hsame : m.renumber ρ = m.renumber τ :=
        Message.renumber_congr fun t ht => (hτ' t (hnamed t ht)).symm
      have hadmits : s'.2.Admits (m.renumber τ) := by
        rw [← hsame, Message.renumber_congr fun t ht => hρ t (hnamed t ht)]
        exact ha.admits hu hm
      rw [hsame] at hmessages hrest
      rw [List.filter_cons_of_pos hu]
      exact ⟨τ, fun t ht => (hτ' t ht).trans (hρ t ht), ⟨hadmits, hmessages⟩, hrest⟩

theorem mem_tickets_foldl {ms : List Message} (hms : Admissible s ms) :
    ∀ m ∈ ms.filter (·.isFor u), ∀ t ∈ m.named?, t ∈ (ms.foldl hear s).2.tickets u := by
  have hkeeps : ∀ (ms : List Message) (s : Coordinator × History), ∀ t ∈ s.2.tickets u,
      t ∈ (ms.foldl hear s).2.tickets u := by
    intro ms
    induction ms with
    | nil => exact fun _ _ ht => ht
    | cons m ms ih => exact fun s t ht => ih (hear s m) t (mem_tickets_hear ht m)
  induction ms generalizing s with
  | nil => exact fun _ hm => absurd hm List.not_mem_nil
  | cons m ms ih =>
    intro m' hm' t ht
    obtain ⟨hm', hu⟩ := List.mem_filter.mp hm'
    rcases List.mem_cons.mp hm' with rfl | hm'
    · exact hkeeps ms _ t (mem_tickets_hear (History.mem_tickets_of_admits hms.1 hu t ht) m')
    · exact ih hms.2 m' (List.mem_filter.mpr ⟨hm', hu⟩) t ht

/-- No report comes twice to the other, if none does to the first. -/
theorem Alike.nodup_named {ms : List Message} {τ : Ticket → Ticket}
    (ha : Alike τ u (ms.foldl hear s) s') (hms : Admissible s ms)
    (hnodup : (ms.filterMap Message.named?).Nodup) :
    (((ms.filter (·.isFor u)).map (Message.renumber τ)).filterMap Message.named?).Nodup := by
  have hnamed : ((ms.filter (·.isFor u)).map (Message.renumber τ)).filterMap Message.named? =
      ((ms.filter (·.isFor u)).filterMap Message.named?).map τ := by
    rw [List.filterMap_map, List.map_filterMap]
    refine List.filterMap_congr fun m _ => ?_
    cases m <;> rfl
  have hmem : ∀ t ∈ (ms.filter (·.isFor u)).filterMap Message.named?,
      t ∈ (ms.foldl hear s).2.tickets u := by
    intro t ht
    obtain ⟨m, hm, hmt⟩ := List.mem_filterMap.mp ht
    exact mem_tickets_foldl hms m hm t hmt
  rw [hnamed]
  refine List.Nodup.map_on (fun t ht t' ht' => ha.injective (hmem t ht) (hmem t' ht')) ?_
  exact hnodup.sublist (List.filter_sublist.filterMap _)

/-! ## Starts -/

theorem Alike.opened {ds ds' : List Document} (ha : Alike σ u s s')
    (hds : ds.filter (·.url = u) = ds'.filter (·.url = u)) :
    ∃ τ, Alike τ u ((ds.map fun d => .command (.opened d)).foldl hear s)
      ((ds'.map fun d => .command (.opened d)).foldl hear s') := by
  have helsewhere : ∀ (ds : List Document), (∀ d ∈ ds, ¬ decide (d.url = u) = true) →
      ∀ {σ s s'}, Alike σ u s s' →
        Alike σ u s ((ds.map fun d => .command (.opened d)).foldl hear s') := by
    intro ds hnone
    induction ds with
    | nil => exact fun ha => ha
    | cons d ds ih =>
      intro σ s s' ha
      obtain ⟨hd, hds⟩ := List.forall_mem_cons.mp hnone
      exact ih hds (ha.elsewhere' (by simpa [Message.isFor] using hd))
  induction ds generalizing σ s s' ds' with
  | nil => exact ⟨σ, helsewhere ds' (List.filter_eq_nil_iff.mp hds.symm) ha⟩
  | cons d ds ih =>
    by_cases hd : d.url = u
    · rw [List.filter_cons_of_pos (by simpa using hd)] at hds
      -- the other opens this document too, after some of other URLs
      obtain ⟨pre, post, rfl, hpre, -, hpost⟩ := List.filter_eq_cons_iff.mp hds.symm
      have hcommon := helsewhere pre hpre ha
      obtain ⟨ρ, -, hturn⟩ := hcommon.turn (m := .command (.opened d))
        (by simpa [Message.isFor] using hd) trivial
      obtain ⟨τ, hrest⟩ := ih hturn hpost.symm
      refine ⟨τ, ?_⟩
      rw [List.map_append, List.foldl_append]
      exact hrest
    · rw [List.filter_cons_of_neg (by simpa using hd)] at hds
      exact ih (ha.elsewhere (by simpa [Message.isFor] using hd)) hds

end Coordinator

/-! ## What is the same -/

def Entry.told? (u : Url) : Entry → Option Event
  | .did (.emit (.published w v ds)) => if w = u then some (.published w v ds) else none
  | .did (.emit (.settled w)) => if w = u then some (.settled w) else none
  | _ => none

def Entry.cancelled? (own : List Ticket) : Entry → Option Ticket
  | .did (.cancelRun t) => if own.contains t then some t else none
  | _ => none

namespace History

/-- What the host was told of a document, oldest first. -/
def told (u : Url) (h : History) : List Event := h.filterMap (Entry.told? u)

/-- The runs of a document that were cancelled, oldest first. -/
def cancelled (u : Url) (h : History) : List Ticket := h.filterMap (Entry.cancelled? (h.tickets u))

variable {σ : Ticket → Ticket} {u : Url} {h h' : History}

theorem told_of_file (hh : h'.file u = (h.file u).map (Entry.renumber σ)) :
    h'.told u = h.told u := by
  have hfile : ∀ h : History, h.told u = (h.file u).filterMap (Entry.told? u) := fun h => by
    refine (filterMap_file fun e hfor => ?_).symm
    unfold Entry.told?
    split
    · exact if_neg (by simpa [Entry.isFor, Effect.isFor] using hfor)
    · exact if_neg (by simpa [Entry.isFor, Effect.isFor] using hfor)
    · rfl
  rw [hfile, hfile, hh, List.filterMap_map]
  refine List.filterMap_congr fun e _ => ?_
  cases e with
  | heard => rfl
  | did e => cases e <;> rfl

theorem begun_of_file (hh : h'.file u = (h.file u).map (Entry.renumber σ)) :
    h'.begun u = (h.begun u).map (Run.renumber σ) := by
  have hfile : ∀ h : History, h.begun u = (h.file u).filterMap (Entry.begun? u) := fun h => by
    refine (filterMap_file fun e hfor => ?_).symm
    unfold Entry.begun?
    split
    · exact if_neg (by simpa [Entry.isFor, Effect.isFor] using hfor)
    · rfl
  rw [hfile, hfile, hh, List.filterMap_map, List.map_filterMap]
  refine List.filterMap_congr fun e _ => ?_
  cases e with
  | heard => rfl
  | did e =>
    cases e with
    | start run =>
      by_cases hu : run.url = u <;>
        simp [Entry.begun?, Entry.renumber, Effect.renumber, Run.renumber, hu]
    | _ => rfl

theorem cancelled_of_file (hh : h'.file u = (h.file u).map (Entry.renumber σ)) :
    h'.cancelled u = (h.cancelled u).map σ := by
  have hfile : ∀ h : History,
      h.cancelled u = (h.file u).filterMap (Entry.cancelled? (h.tickets u)) := fun h => by
    refine (filterMap_file fun e hfor => ?_).symm
    unfold Entry.cancelled?
    split
    · exact if_neg (by simpa [Entry.isFor, Effect.isFor] using hfor)
    · rfl
  have htickets : h'.tickets u = (h.tickets u).map σ := by
    rw [← tickets_file, hh, tickets_map_renumber, tickets_file]
  rw [hfile, hfile, hh, List.filterMap_map, List.map_filterMap, htickets]
  refine List.filterMap_congr fun e he => ?_
  cases e with
  | heard => rfl
  | did e =>
    cases e with
    | cancelRun t =>
      have ht := (cancelRun_mem_file.mp he).2
      have ht' : σ t ∈ (h.tickets u).map σ := List.mem_map_of_mem ht
      show (if ((h.tickets u).map σ).contains (σ t) then some (σ t) else none) =
        (if (h.tickets u).contains t then some t else none).map σ
      rw [if_pos (List.contains_iff_mem.mpr ht), if_pos (List.contains_iff_mem.mpr ht')]
      rfl
    | _ => rfl

end History

namespace Coordinator

/-- What a coordinator has done about a document another has done too, with the tickets `σ`. -/
structure Mirrors (σ : Ticket → Ticket) (u : Url) (s s' : Coordinator × History) : Prop where
  /-- The tickets of the document keep apart and in order. -/
  increasing : ∀ t ∈ s.2.tickets u, ∀ t' ∈ s.2.tickets u, t.number < t'.number →
    (σ t).number < (σ t').number
  /-- The diagnostics and the ends of runs that the host was told. -/
  told : s'.2.told u = s.2.told u
  /-- The runs with their requests. -/
  begun : s'.2.begun u = (s.2.begun u).map (Run.renumber σ)
  cancelled : s'.2.cancelled u = (s.2.cancelled u).map σ
  /-- All of this, the messages and the timers, in the same order. -/
  file : s'.2.file u = (s.2.file u).map (Entry.renumber σ)
  document : s'.1.documents.get? u = (s.1.documents.get? u).map (OpenDocument.renumber σ)
  diagnostics : s'.1.published.get u = s.1.published.get u

variable {σ : Ticket → Ticket} {u : Url} {s s' : Coordinator × History}

theorem Alike.mirrors (ha : Alike σ u s s') : Mirrors σ u s s' where
  increasing := ha.increasing
  told := History.told_of_file ha.file
  begun := History.begun_of_file ha.file
  cancelled := History.cancelled_of_file ha.file
  file := ha.file
  document := congrArg Clerk.document ha.clerk
  diagnostics := congrArg Clerk.diagnostics ha.clerk

end Coordinator

namespace Launch

open Coordinator

variable {start start' : Launch} {u : Url}

theorem alike_start (hsettings : start'.settings = start.settings)
    (hworkspace : start'.workspace = start.workspace)
    (hdocuments : start.documents.filter (·.url = u) = start'.documents.filter (·.url = u)) :
    ∃ σ, Alike σ u (start.coordinator, start.history) (start'.coordinator, start'.history) := by
  have hblank : Alike id u (start.blank, []) (start'.blank, []) :=
    { kept := start.kept_blank
      kept' := start'.kept_blank
      filed := fun e he => absurd he List.not_mem_nil
      clerk := by simp [blank, Coordinator.clerk, Clerk.renumber, Clerk.wait, hsettings, hworkspace]
      file := rfl
      increasing := fun t ht => absurd ht List.not_mem_nil }
  obtain ⟨σ, hopened⟩ := hblank.opened hdocuments
  have hk := hopened.kept.announced
  have hk' := hopened.kept'.announced
  have hboth := (hopened.rests (rests_announced u _) hk).rests' (rests_announced u _) hk'
  rw [start.start_eq, start'.start_eq]
  exact ⟨σ, hboth⟩

/-- **Documents do not interfere.** Without the documents of other URLs and the messages that are
not for the document, the coordinator does the same about the document; the messages that are left
can come, and no report comes twice if none did. -/
theorem isolated (start start' : Launch) (u : Url) (ms : List Message)
    (hsettings : start'.settings = start.settings)
    (hworkspace : start'.workspace = start.workspace)
    (hdocuments : start.documents.filter (·.url = u) = start'.documents.filter (·.url = u))
    (hms : Admissible (start.coordinator, start.history) ms) :
    ∃ σ, Admissible (start'.coordinator, start'.history)
        ((ms.filter (·.isFor u)).map (Message.renumber σ)) ∧
      ((ms.filterMap Message.named?).Nodup →
        (((ms.filter (·.isFor u)).map (Message.renumber σ)).filterMap Message.named?).Nodup) ∧
      Mirrors σ u (start.after ms)
        (start'.after ((ms.filter (·.isFor u)).map (Message.renumber σ))) := by
  obtain ⟨σ, hstart⟩ := alike_start hsettings hworkspace hdocuments
  obtain ⟨τ, -, hmessages, hend⟩ := hstart.foldl hms
  exact ⟨τ, hmessages, hend.nodup_named hms, hend.mirrors⟩

/-- A second file is open, which is checked and edited meanwhile, and the user turns to it. The edit
of the first file is checked as if it were alone. -/
theorem isolated_of_two :
    let other : Url :=
      { workflowUrl with tail := .segments ["repo", ".github", "workflows", "b.yml"] }
    let two : Launch :=
      { workflow with documents := workflow.documents ++
          [{ url := other, language := "yaml", version := 1, text := "on: push\n" }] }
    let ms : List Message := [
      .command (.changed other 2 "on: pull_request\n"),
      .command (.changed workflowUrl 2 "on: pull_request\n"),
      .command (.focused (some other)),
      .elapsed other ⟨2⟩,
      .elapsed workflowUrl ⟨3⟩]
    ((two.after ms).2.begun workflowUrl).map (·.ticket) = [⟨0⟩, ⟨5⟩] ∧
    ∃ σ, Admissible (workflow.coordinator, workflow.history)
        ((ms.filter (·.isFor workflowUrl)).map (Message.renumber σ)) ∧
      Mirrors σ workflowUrl (two.after ms)
        (workflow.after ((ms.filter (·.isFor workflowUrl)).map (Message.renumber σ))) := by
  intro other two ms
  obtain ⟨σ, hmessages, -, hmirrors⟩ := isolated two workflow workflowUrl ms rfl rfl
    (by decide +kernel) (by decide +kernel)
  exact ⟨by decide +kernel, σ, hmessages, hmirrors⟩

end Launch

end WorkflowLint

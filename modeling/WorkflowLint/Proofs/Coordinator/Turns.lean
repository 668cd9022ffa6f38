import WorkflowLint.Proofs.Coordinator.File
/-!
# Every message is a turn of each clerk

Whatever a coordinator hears, the clerk of each document deals with it and puts it on file, and
between two messages it at most waits while tickets are handed out for other documents
(`Coordinator.acts_hear`). So an invariant of one document is proved once for `Clerk.handle`, and
holds in all lives (`Life.clerk_induction`).

The invariant that carries this is `Coordinator.Kept`: no ticket is handed out for two documents,
and a slot holds a ticket that was handed out for its document. What is done about one document is
thus on the file of that document and on no other.
-/

namespace WorkflowLint

namespace Coordinator

/-- The documents and their tickets are in order after a history. -/
structure Kept (c : Coordinator) (h : History) : Prop where
  keyed : c.documents.keys.Nodup
  /-- What is in the slots of a document was handed out for it. -/
  held : ∀ u, ∀ t ∈ (c.clerk u).tickets, t ∈ h.tickets u
  /-- No ticket was handed out for two documents. -/
  apart : ∀ u w t, t ∈ h.tickets u → t ∈ h.tickets w → u = w
  /-- Only tickets that were handed out are named. -/
  named : ∀ e, .did e ∈ h → ∀ t, e.named? = some t → t.number < c.issued

/-- The clerk of a document did `r` and put it on file; before it and after it, tickets were handed
out for other documents. -/
def Acts (u : Url) (r : Clerk → Clerk × List Effect) (x x' : Coordinator × History) : Prop :=
  ∃ n, x.1.issued ≤ n ∧ (r ((x.1.clerk u).wait n)).1.issued ≤ x'.1.issued ∧
    x'.1.clerk u = (r ((x.1.clerk u).wait n)).1.wait x'.1.issued ∧
    x'.2.file u = x.2.file u ++ (r ((x.1.clerk u).wait n)).2.map .did

/-- The clerk of a document did nothing. -/
abbrev Rests (u : Url) : Coordinator × History → Coordinator × History → Prop :=
  Acts u fun k => (k, [])

variable {u w : Url} {c : Coordinator} {h : History} {x : Coordinator × List Effect}
  {y : Clerk × List Effect} {r : Clerk → Clerk × List Effect} {s s' s'' : Coordinator × History}

theorem Rests.of_clerk (hissued : s.1.issued ≤ s'.1.issued)
    (hclerk : s'.1.clerk u = (s.1.clerk u).wait s'.1.issued) (hfile : s'.2.file u = s.2.file u) :
    Rests u s s' :=
  ⟨s.1.issued, Nat.le_refl _, hissued, hclerk, by rw [hfile, List.map_nil, List.append_nil]⟩

theorem Rests.file (hs : Rests u s s') : s'.2.file u = s.2.file u := by
  obtain ⟨n, -, -, -, hfile⟩ := hs
  rw [hfile, List.map_nil, List.append_nil]

theorem Rests.clerk (hs : Rests u s s') : s'.1.clerk u = (s.1.clerk u).wait s'.1.issued := by
  obtain ⟨n, -, -, hclerk, -⟩ := hs
  exact hclerk

theorem Rests.issued (hs : Rests u s s') : s.1.issued ≤ s'.1.issued := by
  obtain ⟨n, hn, hissued, -, -⟩ := hs
  exact Nat.le_trans hn hissued

theorem Rests.acts (hs : Rests u s s') (hs' : Acts u r s' s'') : Acts u r s s'' := by
  obtain ⟨n, hn, hissued, hclerk, hfile⟩ := hs'
  rw [hs.clerk, Clerk.wait_wait] at hissued hclerk hfile
  rw [hs.file] at hfile
  exact ⟨n, Nat.le_trans hs.issued hn, hissued, hclerk, hfile⟩

theorem Acts.rests (hs : Acts u r s s') (hs' : Rests u s' s'') : Acts u r s s'' := by
  obtain ⟨n, hn, hissued, hclerk, hfile⟩ := hs
  refine ⟨n, hn, Nat.le_trans hissued hs'.issued, ?_, ?_⟩
  · rw [hs'.clerk, hclerk, Clerk.wait_wait]
  · rw [hs'.file, hfile]

/-! ## Reactions about one document -/

theorem mem_did {e : Effect} {es : List Effect} : Entry.did e ∈ h ++ es.map .did ↔
    .did e ∈ h ∨ e ∈ es := by
  simp

section Tends

variable (hk : Kept c h) (ht : Tends w c x y) (hd : Clerk.Deals w (c.clerk w) y)

include ht in
theorem Tends.handed (u : Url) : Effect.handed u x.2 = Effect.handed u y.2 := by
  rw [← ht.effects, Effect.handed_filter]

include ht in
theorem Tends.issued_eq : x.1.issued = y.1.issued := congrArg Clerk.issued ht.self

include ht in
theorem Tends.tickets_self :
    History.tickets w (h ++ x.2.map .did) = History.tickets w h ++ Effect.handed w y.2 := by
  rw [History.tickets_append, History.tickets_did, ht.handed]

include ht hd

theorem Tends.tickets_others (hu : u ≠ w) :
    History.tickets u (h ++ x.2.map .did) = History.tickets u h := by
  rw [History.tickets_append, History.tickets_did, ht.handed,
    Effect.handed_of_isFor hd.effects hu, List.append_nil]

include hk

omit hd in
theorem Kept.own (t : Ticket) (hown : t ∈ (c.clerk w).tickets ++ Effect.handed w y.2) :
    t ∈ History.tickets w (h ++ x.2.map .did) := by
  rw [ht.tickets_self, List.mem_append]
  exact (List.mem_append.mp hown).imp (hk.held w t) id

omit ht hd in
theorem Kept.lt_issued {t : Ticket} (htu : t ∈ h.tickets u) : t.number < c.issued := by
  obtain ⟨e, he, -, hnamed⟩ := History.exists_of_mem_tickets htu
  exact hk.named e he t hnamed

theorem Kept.new {e : Effect} (he : .did e ∈ h) (t : Ticket) (hnamed : e.named? = some t) :
    t ∉ History.tickets u (x.2.map .did) := by
  rw [History.tickets_did, ht.handed]
  intro hmem
  have hold := hk.named e he t hnamed
  by_cases hu : u = w
  · subst hu
    exact absurd hold (Nat.not_lt.mpr (hd.handed t hmem).1)
  · rw [Effect.handed_of_isFor hd.effects hu] at hmem
    exact List.not_mem_nil hmem

theorem Kept.apart_tends (u v : Url) (t : Ticket) (htu : t ∈ History.tickets u (h ++ x.2.map .did))
    (htv : t ∈ History.tickets v (h ++ x.2.map .did)) : u = v := by
  -- a new ticket is for `w`, and no ticket from before is new
  have hcases : ∀ {v : Url}, t ∈ History.tickets v (h ++ x.2.map .did) →
      t ∈ h.tickets v ∨ v = w ∧ c.issued ≤ t.number := by
    intro v hv
    by_cases hvw : v = w
    · subst hvw
      rw [ht.tickets_self, List.mem_append] at hv
      exact hv.imp id fun hv => ⟨rfl, (hd.handed t hv).1⟩
    · rw [ht.tickets_others hd hvw] at hv
      exact .inl hv
  rcases hcases htu with hu | ⟨rfl, hu⟩ <;> rcases hcases htv with hv | ⟨rfl, hv⟩
  · exact hk.apart u v t hu hv
  · exact absurd (hk.lt_issued hu) (Nat.not_lt.mpr hv)
  · exact absurd (hk.lt_issued hv) (Nat.not_lt.mpr hu)
  · rfl

theorem Kept.tends : Kept x.1 (h ++ x.2.map .did) where
  keyed := ht.keyed hk.keyed
  held u t htu := by
    by_cases hu : u = w
    · subst hu
      rw [ht.self] at htu
      exact hk.own ht t (hd.held t htu)
    · rw [ht.others u hu] at htu
      rw [ht.tickets_others hd hu]
      exact hk.held u t htu
  apart := hk.apart_tends ht hd
  named e he t hnamed := by
    rcases mem_did.mp he with he | he
    · exact Nat.lt_of_lt_of_le (hk.named e he t hnamed) ht.issued
    · -- what is of no document names no ticket, so the clerk did it
      have hofDocument : e ∈ y.2 := by
        rw [← ht.effects, List.mem_filter]
        refine ⟨he, ?_⟩
        cases e with
        | emit => cases hnamed
        | _ => rfl
      rw [ht.issued_eq]
      have hown : t ∈ (c.clerk w).tickets ++ Effect.handed w y.2 :=
        (Effect.named?_of_isFor hofDocument (hd.effects e hofDocument) hnamed).elim id
          (List.mem_append_right _)
      rcases List.mem_append.mp hown with hold | hnew
      · exact Nat.lt_of_lt_of_le (hk.lt_issued (hk.held w t hold)) hd.issued
      · exact (hd.handed t hnew).2

theorem Kept.file_self : History.file w (h ++ x.2.map .did) = h.file w ++ y.2.map .did := by
  rw [History.file_append fun e he t hnamed => hk.new ht hd he t hnamed, List.filter_map,
    ← ht.effects]
  -- of the new entries, those about the document are those of the clerk
  congr 2
  refine List.filter_congr fun e he => ?_
  rw [Function.comp_apply, Entry.isFor, Bool.eq_iff_iff]
  constructor
  · exact Effect.isOfDocument_of_isFor
  · intro hofDocument
    have hy : e ∈ y.2 := ht.effects ▸ List.mem_filter.mpr ⟨he, hofDocument⟩
    exact Effect.isFor_mono (hk.own ht) (hd.effects e hy)

theorem Kept.file_others (hu : u ≠ w) : History.file u (h ++ x.2.map .did) = h.file u := by
  rw [History.file_append fun e he t hnamed => hk.new ht hd he t hnamed]
  refine (congrArg _ (List.filter_eq_nil_iff.mpr ?_)).trans (List.append_nil _)
  -- an entry about `u` would be one of the clerk of `w`
  refine List.forall_mem_map.mpr fun e he hfor => hu ?_
  have hofDocument : e ∈ y.2 :=
    ht.effects ▸ List.mem_filter.mpr ⟨he, Effect.isOfDocument_of_isFor hfor⟩
  exact Effect.eq_of_isFor (fun t => hk.apart_tends ht hd u w t) hfor
    (Effect.isFor_mono (hk.own ht) (hd.effects e hofDocument))

theorem Kept.acts (hy : y = r (c.clerk w)) : Acts w r (c, h) (x.1, h ++ x.2.map .did) := by
  subst hy
  exact ⟨c.issued, Nat.le_refl _, Nat.le_of_eq ht.issued_eq.symm,
    ht.self.trans (congrArg (Clerk.wait · _) ht.issued_eq.symm), hk.file_self ht hd⟩

theorem Kept.rests (hu : u ≠ w) : Rests u (c, h) (x.1, h ++ x.2.map .did) :=
  .of_clerk ht.issued (ht.others u hu) (hk.file_others ht hd hu)

end Tends

/-! ## Messages -/

theorem Kept.heard (hk : Kept c h) (m : Message) : Kept c (h ++ [.heard m]) where
  keyed := hk.keyed
  held u t ht := by
    rw [History.tickets_append]
    exact List.mem_append_left _ (hk.held u t ht)
  apart u w t hu hw := by
    rw [History.tickets_append, History.tickets_heard, List.append_nil] at hu hw
    exact hk.apart u w t hu hw
  named e he := hk.named e (by simpa using he)

theorem file_heard (u : Url) (h : History) (m : Message) :
    History.file u (h ++ [.heard m]) = h.file u ++ if m.isFor u then [.heard m] else [] := by
  rw [History.file_append (by simp), List.filter_singleton]
  cases hm : m.isFor u <;> simp [Entry.isFor, hm]

/-- A reaction that does about each document what `r` says, and leaves all in order. -/
structure Serves (r : Url → Clerk → Clerk × List Effect) (c : Coordinator) (h : History)
    (x : Coordinator × List Effect) : Prop where
  kept : Kept x.1 (h ++ x.2.map .did)
  acts : ∀ u, Acts u (r u) (c, h) (x.1, h ++ x.2.map .did)

theorem Acts.of_idle (hr : ∀ n, r ((s.1.clerk u).wait n) = ((s.1.clerk u).wait n, []))
    (hs : Rests u s s') : Acts u r s s' := by
  obtain ⟨n, hn, hissued, hclerk, hfile⟩ := hs
  exact ⟨n, hn, by rw [hr]; exact hissued, by rw [hr]; exact hclerk, by rw [hr]; exact hfile⟩

theorem Kept.serves_tends {m : Message} (hk : Kept c h) (hm : ∀ u, m.isFor u = decide (w = u))
    (ht : Tends w c x ((c.clerk w).handle w m)) : Serves (fun u => Clerk.handle u m) c h x where
  kept := hk.tends ht (Clerk.deals_handle w m _)
  acts u := by
    have hd := Clerk.deals_handle w m (c.clerk w)
    by_cases hu : u = w
    · subst hu
      exact hk.acts ht hd rfl
    · refine Acts.of_idle (fun n => Clerk.handle_of_elsewhere ?_) (hk.rests ht hd hu)
      rw [hm u, decide_eq_false (Ne.symm hu)]

section Old

variable {c' : Coordinator} {es : List Effect}

theorem Kept.of_old (hk : Kept c h) (hkeyed : c'.documents.keys.Nodup)
    (hheld : ∀ u, ∀ t ∈ (c'.clerk u).tickets, t ∈ (c.clerk u).tickets)
    (hissued : c'.issued = c.issued) (hhanded : ∀ u, Effect.handed u es = [])
    (hnamed : ∀ e ∈ es, ∀ t, e.named? = some t → ∃ u, t ∈ h.tickets u) :
    Kept c' (h ++ es.map .did) := by
  have htickets : ∀ u, History.tickets u (h ++ es.map .did) = h.tickets u := fun u => by
    rw [History.tickets_append, History.tickets_did, hhanded u, List.append_nil]
  refine ⟨hkeyed, fun u t ht => ?_, fun u w t hu hw => ?_, fun e he t ht => ?_⟩
  · rw [htickets]
    exact hk.held u t (hheld u t ht)
  · rw [htickets] at hu hw
    exact hk.apart u w t hu hw
  · rw [hissued]
    rcases mem_did.mp he with he | he
    · exact hk.named e he t ht
    · obtain ⟨u, hu⟩ := hnamed e he t ht
      exact hk.lt_issued hu

theorem file_of_old (hhanded : Effect.handed u es = []) :
    History.file u (h ++ es.map .did) =
      h.file u ++ (es.filter (Effect.isFor u (h.tickets u))).map .did := by
  have htickets : History.tickets u (es.map .did) = [] := by rw [History.tickets_did, hhanded]
  rw [History.file_append (by simp [htickets]), History.tickets_append, htickets, List.append_nil,
    List.filter_map]
  rfl

theorem Kept.of_documents (hk : Kept c h) (hdocuments : c'.documents = c.documents)
    (hissued : c'.issued = c.issued) : Kept c' h where
  keyed := hdocuments ▸ hk.keyed
  held u t ht := hk.held u t (by simpa [Clerk.tickets, clerk, hdocuments] using ht)
  apart := hk.apart
  named := hissued ▸ hk.named

end Old

theorem mem_news {e : Effect} (he : e ∈ c.news) : e = .emit (.status c.indicator) := by
  rw [news] at he
  split at he
  · cases he
  · exact List.mem_singleton.mp he

theorem handed_news (u : Url) (c : Coordinator) : Effect.handed u c.news = [] :=
  List.filterMap_eq_nil_iff.mpr fun _ he => mem_news he ▸ rfl

theorem Kept.told (hk : Kept c h) : Kept c.told (h ++ c.news.map .did) :=
  hk.of_old hk.keyed (fun _ _ ht => ht) rfl (fun u => handed_news u c) fun e he t ht => by
    rw [mem_news he] at ht
    cases ht

theorem rests_told (u : Url) (c : Coordinator) (h : History) :
    Rests u (c, h) (c.told, h ++ c.news.map .did) :=
  .of_clerk (Nat.le_refl _) rfl <| by
    have hnone : c.news.filter (Effect.isFor u (h.tickets u)) = [] :=
      List.filter_eq_nil_iff.mpr fun e he => by rw [mem_news he]; exact Bool.false_ne_true
    rw [file_of_old (handed_news u c), hnone, List.map_nil, List.append_nil]

/-! ## New settings -/

section Configure

def tidyAll (ws : List Url) : Reaction :=
  Reaction.sequence (ws.map fun w => (endPause w).andThen (check w))

theorem tends_tidy (w : Url) (c : Coordinator) :
    Tends w c ((endPause w).andThen (check w) c)
      (Clerk.andThen (c.clerk w).endPause (Clerk.check w)) :=
  (tends_endPause w c).andThen (tends_check w _)

theorem Kept.tidyAll {ws : List Url} (hws : ws.Nodup) (hk : Kept c h) :
    Serves (fun u k => if u ∈ ws then Clerk.andThen k.endPause (Clerk.check u) else (k, [])) c h
      (tidyAll ws c) := by
  induction ws generalizing c h with
  | nil =>
    refine ⟨?_, fun u => ?_⟩
    · show Kept c (h ++ [])
      rwa [List.append_nil]
    · show Rests u (c, h) (c, h ++ [])
      rw [List.append_nil]
      exact .of_clerk (Nat.le_refl _) rfl rfl
  | cons w ws ih =>
    obtain ⟨hw, hws⟩ := List.nodup_cons.mp hws
    have ht := tends_tidy w c
    have hd : Clerk.Deals w (c.clerk w) (Clerk.andThen (c.clerk w).endPause (Clerk.check w)) :=
      (Clerk.deals_endPause w _).andThen (Clerk.deals_check w)
    have hrest := ih hws (hk.tends ht hd)
    -- the rest leaves `w` alone, as no URL is in the list twice
    have hboth : (tidyAll (w :: ws) c).2 = ((endPause w).andThen (check w) c).2 ++
        (tidyAll ws ((endPause w).andThen (check w) c).1).2 := rfl
    have hh := List.append_assoc h (((endPause w).andThen (check w) c).2.map .did)
      ((tidyAll ws ((endPause w).andThen (check w) c).1).2.map .did)
    rw [← List.map_append, ← hboth] at hh
    refine ⟨hh ▸ hrest.kept, fun u => ?_⟩
    have hu := hh ▸ hrest.acts u
    by_cases huw : u = w
    · subst huw
      simp only [hw, if_false] at hu
      simp only [List.mem_cons_self, if_true]
      exact (hk.acts ht hd rfl).rests hu
    · simp only [List.mem_cons, huw, false_or]
      exact (hk.rests ht hd huw).acts hu

theorem nodup_workflowUrls (hc : c.documents.keys.Nodup) : c.workflowUrls.Nodup := by
  rw [workflowUrls, (List.mergeSort_perm _ _).nodup_iff]
  exact hc.sublist (List.filter_sublist.map _)

theorem mem_workflowUrls (hc : c.documents.keys.Nodup) :
    u ∈ c.workflowUrls ↔ (c.documents.get? u).any (·.qualifies) = true := by
  rw [workflowUrls, List.mem_mergeSort, List.mem_map, Option.any_eq_true]
  constructor
  · rintro ⟨⟨w, d⟩, he, rfl⟩
    obtain ⟨he, hq⟩ := List.mem_filter.mp he
    exact ⟨d, Table.get?_of_mem_entries hc he, hq⟩
  · rintro ⟨d, hd, hq⟩
    exact ⟨(u, d), List.mem_filter.mpr ⟨Table.mem_entries_of_get? hd, hq⟩, rfl⟩

theorem Kept.serves_configure (hk : Kept c h) (hs : c.stopped = false) (s : Settings) :
    Serves (fun u => Clerk.handle u (.command (.configured s))) c h (configure s c) := by
  have hset : Kept { c with settings := s } h := hk.of_documents rfl rfl
  have hall := hset.tidyAll (nodup_workflowUrls hk.keyed)
  rw [configure_eq]
  refine ⟨hall.kept, fun u => ?_⟩
  obtain ⟨n, hn, hissued, hclerk, hfile⟩ := hall.acts u
  have htidy : Clerk.handle u (.command (.configured s)) ((c.clerk u).wait n) =
      if u ∈ c.workflowUrls then
        Clerk.andThen ((clerk { c with settings := s } u).wait n).endPause (Clerk.check u)
      else ((clerk { c with settings := s } u).wait n, []) := by
    rw [Clerk.handle_of_running hs rfl]
    exact if_congr (mem_workflowUrls hk.keyed).symm rfl rfl
  refine ⟨n, hn, ?_, ?_, ?_⟩ <;> rw [htidy] <;> assumption

end Configure

/-! ## The end -/

theorem filter_cancel (d : OpenDocument) (own : List Ticket) (hd : ∀ t ∈ d.tickets, t ∈ own) :
    d.cancel.filter (Effect.isFor u own) = d.cancel :=
  List.filter_eq_self.mpr fun e he => Effect.isFor_mono hd (Clerk.isFor_cancel d e he)

theorem Kept.filter_values (hk : Kept c h) (u : Url) :
    (c.documents.values.flatMap OpenDocument.cancel).filter (Effect.isFor u (h.tickets u)) =
      (c.documents.get? u).elim [] OpenDocument.cancel := by
  have hentries : c.documents.values.flatMap OpenDocument.cancel =
      c.documents.entries.flatMap fun e => e.2.cancel := by
    rw [Table.values, List.flatMap_map]
  rw [hentries, List.filter_flatMap, ← Table.flatMap_entries hk.keyed]
  refine List.flatMap_congr fun e he => ?_
  have hd := Table.get?_of_mem_entries hk.keyed (k := e.1) (a := e.2) he
  have hheld : ∀ t ∈ e.2.tickets, t ∈ h.tickets e.1 := by
    simpa [Clerk.tickets, clerk, hd] using hk.held e.1
  split
  · rename_i heu
    subst heu
    exact filter_cancel e.2 _ hheld
  · rename_i heu
    refine List.filter_eq_nil_iff.mpr fun f hf hfor => heu ?_
    exact (Effect.eq_of_isFor (fun t => hk.apart u e.1 t) hfor
      (Effect.isFor_mono hheld (Clerk.isFor_cancel (u := e.1) e.2 f hf))).symm

theorem handed_values (u : Url) (ds : List OpenDocument) :
    Effect.handed u (ds.flatMap OpenDocument.cancel) = [] := by
  induction ds with
  | nil => rfl
  | cons d ds ih => rw [List.flatMap_cons, Effect.handed_append, Effect.handed_cancel, ih]; rfl

theorem Kept.serves_stop (hk : Kept c h) (hs : c.stopped = false) :
    Serves (fun u => Clerk.handle u (.command .shutdown)) c h (stop c) where
  kept := by
    refine hk.of_old List.nodup_nil (fun u t ht => ?_) rfl (fun u => handed_values u _)
      fun e he t ht => ?_
    · exact absurd ht List.not_mem_nil
    · obtain ⟨d, hd, he⟩ := List.mem_flatMap.mp he
      obtain ⟨⟨w, d⟩, hentry, rfl⟩ := List.mem_map.mp hd
      have hheld : (c.clerk w).document = some d := Table.get?_of_mem_entries hk.keyed hentry
      refine ⟨w, hk.held w t ?_⟩
      rw [Clerk.tickets_of_document hheld]
      have hfor := Effect.named?_of_isFor he (Clerk.isFor_cancel (u := w) d e he) ht
      simpa using hfor
  acts u := by
    refine ⟨c.issued, Nat.le_refl _, ?_, ?_, ?_⟩ <;> rw [Clerk.handle_of_running hs rfl]
    · exact Nat.le_refl _
    · rfl
    · show History.file u (h ++ (c.documents.values.flatMap OpenDocument.cancel).map .did) = _
      rw [file_of_old (handed_values u _), hk.filter_values u]
      rfl

/-! ## Turns -/

theorem Kept.serves_handle (hk : Kept c h) (m : Message) :
    Serves (fun u => Clerk.handle u m) c h (c.handle m) := by
  cases hs : c.stopped with
  | true =>
    have hidle : ∀ u n, ((c.clerk u).wait n).handle u m = ((c.clerk u).wait n, []) :=
      fun u n => Clerk.handle_of_stopped hs m
    rw [handle_of_stopped hs]
    refine ⟨by rwa [List.map_nil, List.append_nil], fun u => Acts.of_idle (hidle u) ?_⟩
    rw [List.map_nil, List.append_nil]
    exact .of_clerk (Nat.le_refl _) rfl rfl
  | false =>
    have hclerk : ∀ {w : Url} (hm : ∀ u, m.isFor u = decide (w = u)), (c.clerk w).handle w m = _ :=
      fun {w} hm => Clerk.handle_of_running hs ((hm w).trans (decide_eq_true rfl))
    rw [handle_of_running hs]
    cases m with
    | command command =>
      cases command with
      | opened d =>
        exact hk.serves_tends (fun _ => rfl) (hclerk (fun _ => rfl) ▸ tends_openDocument d c)
      | changed w version text =>
        exact hk.serves_tends (fun _ => rfl)
          (hclerk (fun _ => rfl) ▸ tends_changeDocument w version text c)
      | saved w text =>
        exact hk.serves_tends (fun _ => rfl) (hclerk (fun _ => rfl) ▸ tends_saveDocument w text c)
      | closed w =>
        exact hk.serves_tends (fun _ => rfl) (hclerk (fun _ => rfl) ▸ tends_closeDocument w c)
      | focused w =>
        have hset : Kept { c with active := w } h := hk.of_documents rfl rfl
        show Serves _ c h (obey (.focused w) c)
        rw [focus_eq]
        refine ⟨hset.told, fun u => Acts.of_idle (fun n => Clerk.handle_of_elsewhere rfl) ?_⟩
        exact rests_told u { c with active := w } h
      | configured s => exact hk.serves_configure hs s
      | rooted workspace =>
        have hset : Kept { c with workspace } h := hk.of_documents rfl rfl
        refine ⟨(List.append_nil h).symm ▸ hset, fun u => ⟨c.issued, Nat.le_refl _, ?_, ?_, ?_⟩⟩ <;>
          rw [Clerk.handle_of_running hs rfl]
        · exact Nat.le_refl _
        · rfl
        · exact (congrArg (History.file u) (List.append_nil h)).trans (List.append_nil _).symm
      | shutdown => exact hk.serves_stop hs
    | elapsed w t =>
      exact hk.serves_tends (fun _ => rfl) (hclerk (fun _ => rfl) ▸ tends_elapse w t c)
    | finished run result =>
      exact hk.serves_tends (fun _ => rfl) (hclerk (fun _ => rfl) ▸ tends_finish run result c)

theorem Kept.hear (hk : Kept s.1 s.2) (m : Message) : Kept (hear s m).1 (hear s m).2 := by
  have hkept := ((hk.heard m).serves_handle m).kept
  rwa [List.append_assoc] at hkept

/-- **A message is a turn of each clerk.** It goes on file where it is for the document, and then
the clerk deals with it. -/
theorem acts_hear (hk : Kept s.1 s.2) (u : Url) (m : Message) :
    Acts u (Clerk.handle u m) (s.1, s.2 ++ [.heard m]) (hear s m) := by
  have hacts := ((hk.heard m).serves_handle m).acts u
  rwa [List.append_assoc] at hacts

end Coordinator

/-! ## Lives -/

namespace Coordinator

def announced (s : Coordinator × History) : Coordinator × History :=
  (s.1.told, s.2 ++ s.1.news.map .did)

theorem Kept.announced (hk : Kept s.1 s.2) : Kept (announced s).1 (announced s).2 := hk.told

theorem rests_announced (u : Url) (s : Coordinator × History) : Rests u s (announced s) :=
  rests_told u s.1 s.2

theorem takeUp_eq (ds : List Document) {s : Coordinator × History} (hs : s.1.stopped = false) :
    ((Reaction.andThen (.sequence (ds.map openDocument)) refresh s.1).1, s.2 ++ s.1.takeUp ds) =
      announced ((ds.map fun d => .command (.opened d)).foldl hear s) := by
  induction ds generalizing s with
  | nil => simp [takeUp, refresh_eq, announced]
  | cons d ds ih =>
    have hheard : hear s (.command (.opened d)) = ((openDocument d s.1).1,
        s.2 ++ .heard (.command (.opened d)) :: (openDocument d s.1).2.map .did) := by
      rw [hear, handle_of_running hs]
      rfl
    have hrest := ih (s := hear s (.command (.opened d)))
      (by rw [hheard]; exact (openDocument_stopped d s.1).trans hs)
    show _ = announced (List.foldl hear (hear s (.command (.opened d))) _)
    rw [hheard, List.append_assoc] at hrest
    rw [hheard]
    exact hrest

end Coordinator

namespace Launch

open Coordinator

/-- Before any document is open. -/
def blank (start : Launch) : Coordinator :=
  { settings := start.settings, workspace := start.workspace }

/-- The documents that are open already are heard of as if they were opened. -/
def messages (start : Launch) : List Message :=
  start.documents.map fun d => .command (.opened d)

theorem start_eq (start : Launch) :
    (start.coordinator, start.history) = announced (start.messages.foldl hear (start.blank, [])) :=
  takeUp_eq start.documents (s := (start.blank, [])) rfl

theorem admissible_messages (start : Launch) : Admissible (start.blank, []) start.messages := by
  have hopened : ∀ (ds : List Document) (s : Coordinator × History),
      Admissible s (ds.map fun d => .command (.opened d)) := by
    intro ds
    induction ds with
    | nil => exact fun _ => trivial
    | cons d ds ih => exact fun s => ⟨trivial, ih _⟩
  exact hopened start.documents _

theorem kept_blank (start : Launch) : Kept start.blank [] where
  keyed := List.nodup_nil
  held _ _ ht := absurd ht List.not_mem_nil
  apart _ _ _ ht := absurd ht List.not_mem_nil
  named _ he := absurd he List.not_mem_nil

/-- The clerk of a document before anything happened. -/
def clerk (start : Launch) : Clerk where
  settings := start.settings
  workspace := start.workspace
  issued := 0
  stopped := false
  document := none
  diagnostics := []

end Launch

namespace Coordinator

theorem kept_foldl (ms : List Message) {s : Coordinator × History} (hk : Kept s.1 s.2) :
    Kept (ms.foldl hear s).1 (ms.foldl hear s).2 := by
  induction ms generalizing s with
  | nil => exact hk
  | cons m ms ih => exact ih (hk.hear m)

end Coordinator

theorem Launch.kept (start : Launch) : start.coordinator.Kept start.history := by
  have hkept := (Coordinator.kept_foldl (s := (start.blank, [])) start.messages
    start.kept_blank).announced
  rwa [← start.start_eq] at hkept

theorem Life.kept {start : Launch} {c : Coordinator} {h : History} (hl : Life start c h) :
    c.Kept h := by
  induction hl with
  | launched => exact start.kept
  | hears _ _ ih => exact ih.hear (s := (_, _)) _

namespace Clerk

/-- What is kept when a clerk waits, and when it deals with a message that can come. -/
structure Stable (u : Url) (P : Clerk → History → Prop) : Prop where
  wait : ∀ {k v}, P k v → ∀ n, k.issued ≤ n → P (k.wait n) v
  handle : ∀ {k v}, P k v → ∀ m, m.isFor u = true → v.Admits m →
    P (k.handle u m).1 (v ++ .heard m :: (k.handle u m).2.map .did)

variable {u : Url} {P : Clerk → History → Prop} {s s' : Coordinator × History}

theorem Stable.rests (hP : Stable u P) (hs : Coordinator.Rests u s s')
    (h : P (s.1.clerk u) (s.2.file u)) : P (s'.1.clerk u) (s'.2.file u) := by
  rw [hs.clerk, hs.file]
  exact hP.wait h _ hs.issued

theorem Stable.hear {m : Message} (hP : Stable u P) (hk : s.1.Kept s.2) (hm : s.2.Admits m)
    (h : P (s.1.clerk u) (s.2.file u)) :
    P ((Coordinator.hear s m).1.clerk u) ((Coordinator.hear s m).2.file u) := by
  obtain ⟨n, hn, hissued, hclerk, hfile⟩ := Coordinator.acts_hear hk u m
  rw [hclerk, hfile, Coordinator.file_heard]
  refine hP.wait ?_ _ hissued
  have hwait := hP.wait h n hn
  cases hu : m.isFor u with
  | true =>
    have hheard := hP.handle hwait m hu ((History.admits_file hu s.2).mpr hm)
    simpa using hheard
  | false =>
    rw [handle_of_elsewhere hu]
    simpa using hwait

theorem Stable.foldl {ms : List Message} (hP : Stable u P) (hk : s.1.Kept s.2)
    (hms : Coordinator.Admissible s ms) (h : P (s.1.clerk u) (s.2.file u)) :
    P ((ms.foldl Coordinator.hear s).1.clerk u) ((ms.foldl Coordinator.hear s).2.file u) := by
  induction ms generalizing s with
  | nil => exact h
  | cons m ms ih => exact ih (hk.hear m) hms.2 (hP.hear hk hms.1 h)

end Clerk

/-- **What holds of a document before anything happened, and is kept by its clerk, holds of it in
every life.** -/
theorem Life.clerk_induction {start : Launch} {c : Coordinator} {h : History} {u : Url}
    {P : Clerk → History → Prop} (hl : Life start c h) (hP : Clerk.Stable u P)
    (hblank : P start.clerk []) : P (c.clerk u) (h.file u) := by
  induction hl with
  | launched =>
    have hopened := hP.foldl (s := (start.blank, [])) start.kept_blank start.admissible_messages
      hblank
    have hstart := hP.rests (Coordinator.rests_announced u _) hopened
    rwa [← start.start_eq] at hstart
  | hears hl hm ih => exact hP.hear (s := (_, _)) hl.kept hm ih

end WorkflowLint

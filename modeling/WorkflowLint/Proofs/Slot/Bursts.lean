import WorkflowLint.Proofs.Slot.Vigil
/-!
# Bursts

A message counts when it is claimed on the slot it was scheduled on, if nothing was scheduled there
since, the slot was not cancelled and the message was not claimed there before (`fires_iff`). All of
this can be told from what was done with that slot and from the time that passed, so other slots
have no part in it (`hasArrived_alone`, `fires_alone`). An attentive owner claims each message as it
arrives. Of a burst of schedules that follow each other within their delay it so hears of one, when
the delay has passed since the last.
-/

namespace WorkflowLint

namespace Vigil

variable {n : Nat} {v : Vigil n} {i j home : Fin n} {k delay : Nat} {t : Ticket}
  {s : Step n} {steps pre post : List (Step n)}

/-! ## What counts -/

/-- The schedule `k` of a slot is its last, and the slot was not cancelled since. -/
def IsLatest (steps : List (Step n)) (i : Fin n) (k : Nat) : Prop :=
  ∃ pre delay post, steps = pre ++ .schedule i delay :: post ∧ scheduled i pre = k ∧
    ∀ s ∈ post, s.supersedes i = false

/-- The message of a schedule was claimed on its own slot once it had arrived. -/
def Claimed (steps : List (Step n)) (i : Fin n) (k : Nat) : Prop :=
  ∃ mid rest, steps = mid ++ .claim i i k :: rest ∧ (after mid).hasArrived i k = true

theorem isLatest_snoc :
    IsLatest (steps ++ [s]) i k ↔
      s.schedules i = true ∧ scheduled i steps = k ∨
        IsLatest steps i k ∧ s.supersedes i = false := by
  constructor
  · rintro ⟨pre, delay, post, heq, hk, hpost⟩
    obtain ⟨post', rfl, rfl⟩ | ⟨rfl, rfl, -⟩ := eq_append_of_concat heq
    · refine .inr ⟨⟨pre, delay, post', rfl, hk, fun s hs => ?_⟩, ?_⟩
      · exact hpost s (List.mem_append_left _ hs)
      · exact hpost s (List.mem_append_right _ List.mem_cons_self)
    · exact .inl ⟨decide_eq_true rfl, hk⟩
  · rintro (⟨hs, hk⟩ | ⟨⟨pre, delay, post, rfl, hk, hpost⟩, hs⟩)
    · cases s with
      | schedule j delay =>
        obtain rfl : j = i := of_decide_eq_true hs
        exact ⟨steps, delay, [], rfl, hk, fun s hs => absurd hs List.not_mem_nil⟩
      | cancel | advance | claim => cases hs
    · refine ⟨pre, delay, post ++ [s], by simp, hk, fun s' hs' => ?_⟩
      obtain hs' | hs' := List.mem_append.mp hs'
      · exact hpost s' hs'
      · exact List.mem_singleton.mp hs' ▸ hs

theorem claimed_snoc :
    Claimed (steps ++ [s]) i k ↔
      Claimed steps i k ∨ s = .claim i i k ∧ (after steps).hasArrived i k = true := by
  constructor
  · rintro ⟨mid, rest, heq, harrived⟩
    obtain ⟨rest', rfl, rfl⟩ | ⟨rfl, rfl, -⟩ := eq_append_of_concat heq
    · exact .inl ⟨mid, rest', rfl, harrived⟩
    · exact .inr ⟨rfl, harrived⟩
  · rintro (⟨mid, rest, rfl, harrived⟩ | ⟨rfl, harrived⟩)
    · exact ⟨mid, rest ++ [s], by simp, harrived⟩
    · exact ⟨steps, [], rfl, harrived⟩

theorem Claimed.lt_scheduled (h : Claimed steps i k) : k < scheduled i steps := by
  obtain ⟨mid, rest, rfl, harrived⟩ := h
  exact Nat.lt_of_lt_of_le (lt_scheduled_of_hasArrived harrived)
    (List.Sublist.countP_le (List.sublist_append_left _ _))

theorem Sound.isCurrent_step (h : Sound v) (ht : (v.tickets i)[k]? = some t) :
    (v.step s).pauses.board.isCurrent i t = true ↔
      (v.pauses.board.isCurrent i t = true ∧ s.supersedes i = false) ∧
        ¬ (s = .claim i i k ∧ v.hasArrived i k = true) := by
  have hbegun : .begun i t ∈ v.log := mem_tickets.mp (List.mem_of_getElem? ht)
  cases s with
  | schedule j delay =>
    have hd := Bench.follows_begin h.bench j
    have hnew : Bench.Deed.begun j (v.bench.board.begin j).1 ≠ .begun i t := fun heq =>
      h.new_ticket j delay (heq ▸ hbegun : .begun j (v.pauses.schedule j delay).1 ∈ v.log)
    refine (hd.current i t).trans ?_
    rw [or_iff_right hnew, ← Bool.not_eq_true, supersedes_schedule]
    exact (and_iff_left fun hs => by cases hs.1).symm
  | cancel j =>
    have hd := Bench.follows_cancel h.bench j
    refine (hd.current i t).trans ?_
    rw [or_iff_right (fun heq => by cases heq), ← Bool.not_eq_true, supersedes_cancel]
    exact (and_iff_left fun hs => by cases hs.1).symm
  | advance delay =>
    exact ⟨fun hcurrent => ⟨⟨hcurrent, rfl⟩, fun hs => by cases hs.1⟩,
      fun hcurrent => hcurrent.1.1⟩
  | claim j home k' =>
    cases harrived : v.arrived? home k' with
    | none =>
      rw [step_claim_of_none harrived]
      refine ⟨fun hcurrent => ⟨⟨hcurrent, rfl⟩, ?_⟩, fun hcurrent => hcurrent.1.1⟩
      rintro ⟨heq, hk⟩
      cases heq
      rw [hasArrived, harrived] at hk
      cases hk
    | some u =>
      rw [step_claim_of_some harrived]
      have hd := Bench.follows_settle h.bench j u ()
      have hu := (arrived?_eq_some_iff.mp harrived).1
      refine (hd.current i t).trans ?_
      rw [or_iff_right (fun heq => by cases heq), and_assoc]
      refine and_congr_right fun hcurrent => Iff.trans ?_ (and_iff_right rfl).symm
      refine not_congr ⟨fun hclears => ?_, ?_⟩
      · obtain hgives | ⟨t', w, heq⟩ := hclears.cases
        · exact hgives.elim
        · have hsettled := hd.settled _ _ _ heq
          obtain ⟨rfl, rfl, -⟩ := Bench.Deed.settled.inj heq
          obtain rfl := eq_of_isCurrent hsettled hcurrent
          obtain rfl := h.bench.home _ _ _ (mem_tickets.mp (List.mem_of_getElem? hu)) hbegun
          have hlt := (List.getElem?_eq_some_iff.mp hu).1
          obtain rfl := (List.getElem?_inj hlt (h.distinct home)).mp (hu.trans ht.symm)
          exact ⟨rfl, by rw [hasArrived, harrived]; rfl⟩
      · rintro ⟨heq, -⟩
        cases heq
        obtain rfl := Option.some.inj (hu.symm.trans ht)
        rw [(h.bench.settle_of_current hcurrent ()).1]
        rfl

/-- A slot holds the ticket of its last schedule until it is cancelled or the message is claimed. -/
theorem isCurrent_iff (ht : ((after steps).tickets i)[k]? = some t) :
    (after steps).pauses.board.isCurrent i t = true ↔
      IsLatest steps i k ∧ ¬ Claimed steps i k := by
  induction steps using List.reverseRecOn with
  | nil => cases ht
  | append_singleton steps s ih =>
    have h := sound_after steps
    rw [isLatest_snoc, claimed_snoc]
    rw [after_snoc] at ht ⊢
    by_cases hs : s.schedules i = true ∧ scheduled i steps = k
    · -- it was scheduled just now
      obtain ⟨hs, rfl⟩ := hs
      cases s with
      | schedule j delay =>
        obtain rfl : j = i := of_decide_eq_true hs
        rw [tickets_schedule, if_pos rfl, ← length_tickets,
          List.getElem?_append_right (Nat.le_refl _), Nat.sub_self] at ht
        obtain rfl := Option.some.inj ht
        refine iff_of_true (((Bench.follows_begin h.bench j).current j _).mpr (.inl rfl))
          ⟨.inl ⟨hs, rfl⟩, ?_⟩
        rintro (hclaimed | ⟨heq, -⟩)
        · exact Nat.lt_irrefl _ hclaimed.lt_scheduled
        · cases heq
      | cancel | advance | claim => cases hs
    · have hold : ((after steps).tickets i)[k]? = some t := by
        cases hsched : s.schedules i with
        | false => rwa [tickets_step _ hsched] at ht
        | true =>
          cases s with
          | schedule j delay =>
            obtain rfl : j = i := of_decide_eq_true hsched
            rw [tickets_schedule, if_pos rfl] at ht
            rw [List.getElem?_append] at ht
            split_ifs at ht with hk
            · exact ht
            · -- the new ticket is the last one
              have hlt := (List.getElem?_eq_some_iff.mp ht).1
              rw [List.length_singleton, length_tickets] at hlt
              rw [length_tickets] at hk
              exact absurd ⟨hsched, by omega⟩ hs
          | cancel | advance | claim => cases hsched
      rw [h.isCurrent_step hold, ih hold, or_iff_right hs, not_or]
      tauto

/-- A message counts on the slot it was scheduled on, when that was the last schedule, the slot was
not cancelled since, the message has arrived and was not claimed before. -/
theorem fires_iff :
    (after steps).fires i home k = true ↔
      home = i ∧ (after steps).hasArrived i k = true ∧ IsLatest steps i k ∧
        ¬ Claimed steps i k := by
  have h := sound_after steps
  rw [fires, Option.any_eq_true]
  simp only [Pauses.fire_eq]
  constructor
  · rintro ⟨t, harrived, hcurrent⟩
    have ht := (arrived?_eq_some_iff.mp harrived).1
    obtain rfl := h.bench.home _ _ _ (mem_tickets.mp (List.mem_of_getElem? ht))
      (h.bench.begun_of_current hcurrent)
    exact ⟨rfl, by rw [hasArrived, harrived]; rfl, (isCurrent_iff ht).mp hcurrent⟩
  · rintro ⟨rfl, harrived, hlatest⟩
    obtain ⟨t, harrived⟩ := Option.isSome_iff_exists.mp harrived
    exact ⟨t, harrived, (isCurrent_iff (arrived?_eq_some_iff.mp harrived).1).mpr hlatest⟩

/-! ## Other slots -/

/-- What is done with a slot, and the time that passes. -/
def Step.isFor (i : Fin n) : Step n → Bool
  | .schedule j _ => j = i
  | .cancel j => j = i
  | .advance _ => true
  | .claim j _ _ => j = i

/-- The steps without what is done with other slots. -/
def alone (i : Fin n) (steps : List (Step n)) : List (Step n) := steps.filter (Step.isFor i)

theorem elapsed_alone (i : Fin n) (steps : List (Step n)) :
    elapsed (alone i steps) = elapsed steps := by
  induction steps with
  | nil => rfl
  | cons s steps ih =>
    rw [alone, List.filter_cons]
    split_ifs with hs
    · exact congrArg (s.span + ·) ih
    · cases s with
      | advance => exact absurd rfl hs
      | schedule | cancel | claim => exact ih.trans (Nat.zero_add _).symm

theorem isFor_of_supersedes (h : s.supersedes i = true) : s.isFor i = true := by
  cases s with
  | schedule | cancel => exact h
  | advance | claim => cases h

theorem isFor_of_schedules (h : s.schedules i = true) : s.isFor i = true := by
  cases s with
  | schedule => exact h
  | cancel | advance | claim => cases h

theorem scheduled_alone (i : Fin n) (steps : List (Step n)) :
    scheduled i (alone i steps) = scheduled i steps := by
  rw [scheduled, alone, List.countP_filter, scheduled]
  refine List.countP_congr fun s _ => ?_
  rw [Bool.and_eq_true, and_iff_left_of_imp isFor_of_schedules]

theorem alone_split (hs : s.isFor i = true) :
    alone i (pre ++ s :: post) = alone i pre ++ s :: alone i post := by
  rw [alone, List.filter_append, List.filter_cons_of_pos hs]
  rfl

theorem exists_of_alone (h : alone i steps = pre ++ s :: post) :
    ∃ pre' post', steps = pre' ++ s :: post' ∧ alone i pre' = pre ∧ alone i post' = post := by
  obtain ⟨pre', rest, rfl, hpre, hrest⟩ := List.filter_eq_append_iff.mp h
  obtain ⟨skipped, post', rfl, hskipped, -, hpost⟩ := List.filter_eq_cons_iff.mp hrest
  refine ⟨pre' ++ skipped, post', by simp, ?_, hpost⟩
  rw [alone, List.filter_append, hpre, List.filter_eq_nil_iff.mpr hskipped, List.append_nil]

theorem undisturbed_alone :
    Undisturbed i delay (alone i steps) ↔ Undisturbed i delay steps := by
  constructor
  · rintro h mid s rest rfl hs
    have hle := h _ s _ (alone_split (isFor_of_supersedes hs)) hs
    rwa [elapsed_alone] at hle
  · intro h mid s rest heq hs
    obtain ⟨mid', rest', rfl, rfl, rfl⟩ := exists_of_alone heq
    rw [elapsed_alone]
    exact h mid' s rest' rfl hs

theorem isFor_schedule : (Step.schedule i delay).isFor i = true := decide_eq_true rfl

theorem hasArrived_alone (i : Fin n) (steps : List (Step n)) (k : Nat) :
    (after (alone i steps)).hasArrived i k = (after steps).hasArrived i k := by
  rw [Bool.eq_iff_iff]
  obtain hk | hk := Nat.lt_or_ge k (scheduled i steps)
  · obtain ⟨pre, delay, post, rfl, rfl⟩ := exists_schedule hk
    rw [alone_split isFor_schedule, hasArrived_iff, ← scheduled_alone, hasArrived_iff,
      elapsed_alone, undisturbed_alone]
  · refine iff_of_false (fun h => ?_) fun h => ?_
    · have hlt := lt_scheduled_of_hasArrived h
      rw [scheduled_alone] at hlt
      exact Nat.not_lt.mpr hk hlt
    · exact Nat.not_lt.mpr hk (lt_scheduled_of_hasArrived h)

theorem claimed_alone : Claimed (alone i steps) i k ↔ Claimed steps i k := by
  constructor
  · rintro ⟨mid, rest, heq, harrived⟩
    obtain ⟨mid', rest', rfl, rfl, rfl⟩ := exists_of_alone heq
    rw [hasArrived_alone] at harrived
    exact ⟨mid', rest', rfl, harrived⟩
  · rintro ⟨mid, rest, rfl, harrived⟩
    refine ⟨alone i mid, alone i rest, alone_split (decide_eq_true rfl), ?_⟩
    rwa [hasArrived_alone]

theorem isLatest_alone : IsLatest (alone i steps) i k ↔ IsLatest steps i k := by
  constructor
  · rintro ⟨pre, delay, post, heq, rfl, hpost⟩
    obtain ⟨pre', post', rfl, rfl, rfl⟩ := exists_of_alone heq
    refine ⟨pre', delay, post', rfl, (scheduled_alone i pre').symm, fun s hs => ?_⟩
    cases hsup : s.supersedes i with
    | false => rfl
    | true =>
      exact hsup.symm.trans
        (hpost s (List.mem_filter.mpr ⟨hs, isFor_of_supersedes hsup⟩))
  · rintro ⟨pre, delay, post, rfl, rfl, hpost⟩
    refine ⟨alone i pre, delay, alone i post, alone_split isFor_schedule,
      scheduled_alone i pre, fun s hs => hpost s (List.mem_filter.mp hs).1⟩

theorem fires_alone (i : Fin n) (steps : List (Step n)) (home : Fin n) (k : Nat) :
    (after (alone i steps)).fires i home k = (after steps).fires i home k := by
  rw [Bool.eq_iff_iff, fires_iff, fires_iff, hasArrived_alone, isLatest_alone, claimed_alone]

/-! ## Attentive owners -/

/-- All messages that have arrived are claimed. -/
def AllClaimed (steps : List (Step n)) : Prop :=
  ∀ i k, (after steps).hasArrived i k = true → Claimed steps i k

def Step.isClaim : Step n → Bool
  | .claim _ _ _ => true
  | _ => false

/-- Each message is claimed as it arrives: while one waits nothing else is done, and time does not
move past a deadline at which one arrives. -/
structure Attentive (steps : List (Step n)) : Prop where
  prompt : ∀ pre s post, steps = pre ++ s :: post → s.isClaim = true ∨ AllClaimed pre
  stops : ∀ pre s post, steps = pre ++ s :: post →
    ∀ u ∈ (after pre).pauses.timers, (after pre).pauses.now + s.span ≤ u.deadline
  done : AllClaimed steps

/-- After the steps `pre` a message is claimed on the slot, and it counts. -/
def FiresAfter (steps : List (Step n)) (i : Fin n) (pre : List (Step n)) : Prop :=
  ∃ home k post, steps = pre ++ .claim i home k :: post ∧ (after pre).fires i home k = true

theorem eq_of_last {pre' post' : List (Step n)} {delay' : Nat}
    (h : pre ++ .schedule i delay :: post = pre' ++ .schedule i delay' :: post')
    (hpost : ∀ s ∈ post, s.supersedes i = false) (hpost' : ∀ s ∈ post', s.supersedes i = false) :
    pre = pre' ∧ delay = delay' ∧ post = post' := by
  have hself : ∀ d, (Step.schedule i d).supersedes i = true := fun d => decide_eq_true rfl
  obtain ⟨mid, -, rfl⟩ | ⟨new, rfl, hnew⟩ := eq_append_of_append h
  · have hsup := hpost' (.schedule i delay) (List.mem_append_right _ List.mem_cons_self)
    rw [hself] at hsup
    cases hsup
  · cases new with
    | nil =>
      obtain ⟨hdelay, rfl⟩ := List.cons.inj hnew
      exact ⟨(List.append_nil _).symm, (Step.schedule.inj hdelay).2, rfl⟩
    | cons s new =>
      obtain ⟨-, rfl⟩ := List.cons.inj hnew
      have hsup := hpost (.schedule i delay') (List.mem_append_right _ List.mem_cons_self)
      rw [hself] at hsup
      cases hsup

theorem undisturbed_of_forall (hpost : ∀ s ∈ post, s.supersedes i = false) :
    Undisturbed i delay post := fun mid s rest heq hs => by
  rw [hpost s (heq ▸ List.mem_append_right _ List.mem_cons_self)] at hs
  cases hs

theorem fires_of_last (hpost : ∀ s ∈ post, s.supersedes i = false) :
    (after (pre ++ .schedule i delay :: post)).fires i home k = true ↔
      home = i ∧ k = scheduled i pre ∧ delay ≤ elapsed post ∧
        ¬ Claimed (pre ++ .schedule i delay :: post) i k := by
  rw [fires_iff]
  constructor
  · rintro ⟨rfl, harrived, ⟨pre', delay', post', heq, rfl, hpost'⟩, hclaimed⟩
    obtain ⟨rfl, rfl, rfl⟩ := eq_of_last heq hpost hpost'
    exact ⟨rfl, rfl, ((hasArrived_iff _ _ _ _).mp harrived).1, hclaimed⟩
  · rintro ⟨rfl, rfl, hdelay, hclaimed⟩
    exact ⟨rfl, (hasArrived_iff _ _ _ _).mpr ⟨hdelay, undisturbed_of_forall hpost⟩,
      ⟨pre, delay, post, rfl, rfl, hpost⟩, hclaimed⟩

theorem Claimed.first (h : Claimed steps i k) :
    ∃ mid rest, steps = mid ++ .claim i i k :: rest ∧
      (after mid).hasArrived i k = true ∧ ¬ Claimed mid i k := by
  induction steps using List.reverseRecOn with
  | nil =>
    obtain ⟨mid, rest, heq, -⟩ := h
    exact absurd heq (by simp)
  | append_singleton steps s ih =>
    by_cases hold : Claimed steps i k
    · obtain ⟨mid, rest, rfl, hmid⟩ := ih hold
      exact ⟨mid, rest ++ [s], by simp, hmid⟩
    · obtain ⟨rfl, harrived⟩ := (claimed_snoc.mp h).resolve_left hold
      exact ⟨steps, [], rfl, harrived, hold⟩

theorem eq_of_first {pre' post' : List (Step n)}
    (h : pre ++ .claim i i k :: post = pre' ++ .claim i i k :: post')
    (harrived : (after pre).hasArrived i k = true) (hpre : ¬ Claimed pre i k)
    (harrived' : (after pre').hasArrived i k = true) (hpre' : ¬ Claimed pre' i k) :
    pre = pre' := by
  obtain ⟨mid, rfl, -⟩ | ⟨new, rfl, hnew⟩ := eq_append_of_append h
  · exact absurd ⟨pre', mid, rfl, harrived'⟩ hpre
  · cases new with
    | nil => exact (List.append_nil _).symm
    | cons s new =>
      obtain ⟨rfl, -⟩ := List.cons.inj hnew
      exact absurd ⟨pre, new, rfl, harrived⟩ hpre'

/-- While a message of the last schedule is not claimed, an attentive owner does not let more time
pass than its delay. -/
theorem Attentive.elapsed_le {rest : List (Step n)}
    (h : Attentive (pre ++ .schedule i delay :: (post ++ rest)))
    (hpost : ∀ s ∈ post, s.supersedes i = false)
    (hclaimed : ¬ Claimed (pre ++ .schedule i delay :: post) i (scheduled i pre)) :
    elapsed post ≤ delay := by
  induction post using List.reverseRecOn generalizing rest with
  | nil => exact Nat.zero_le _
  | append_singleton post s ih =>
    have hkept : ∀ s ∈ post, s.supersedes i = false :=
      fun s' hs' => hpost s' (List.mem_append_left _ hs')
    have hbefore : ¬ Claimed (pre ++ .schedule i delay :: post) i (scheduled i pre) := by
      rintro ⟨mid, rest', heq, harrived⟩
      refine hclaimed ⟨mid, rest' ++ [s], ?_, harrived⟩
      rw [← List.cons_append, ← List.append_assoc, heq]
      simp
    have hrest : Attentive (pre ++ .schedule i delay :: (post ++ s :: rest)) := by simpa using h
    have hle := ih hrest hkept hbefore
    have hsplit : pre ++ .schedule i delay :: (post ++ [s] ++ rest) =
        (pre ++ .schedule i delay :: post) ++ s :: rest := by simp
    rw [elapsed_append, elapsed_cons]
    obtain hwait | hdue := Nat.lt_or_ge (elapsed post) delay
    · -- its timer goes on, and the owner stops at the deadline
      obtain ⟨u, hu, hdeadline⟩ := exists_timer pre hkept hwait
      have hstop := h.stops _ s rest hsplit u hu
      rw [now_after, elapsed_append, elapsed_cons, hdeadline] at hstop
      change elapsed pre + (0 + elapsed post) + s.span ≤ _ at hstop
      change elapsed post + (s.span + 0) ≤ _
      omega
    · -- the message has arrived, so what is done next is a claim
      have harrived := (hasArrived_iff pre i delay post).mpr ⟨hdue, undisturbed_of_forall hkept⟩
      obtain hclaim | hall := h.prompt _ s rest hsplit
      · cases s with
        | claim => exact hle
        | schedule | cancel | advance => cases hclaim
      · exact absurd (hall i _ harrived) hbefore

/-- In a burst nothing counts before its last schedule. -/
theorem not_fires_of_gaps {before pre post : List (Step n)} {gaps : List (List (Step n))}
    (hgaps : ∀ gap ∈ gaps, (∀ s ∈ gap, s.supersedes i = false) ∧ elapsed gap < delay)
    (h : gaps.flatMap (Step.schedule i delay :: ·) = pre ++ .claim i home k :: post) :
    (after (before ++ pre)).fires i home k = false := by
  induction gaps generalizing before pre with
  | nil => exact absurd h (by simp)
  | cons gap gaps ih =>
    obtain ⟨hgap, hgaps⟩ := List.forall_mem_cons.mp hgaps
    rw [List.flatMap_cons] at h
    obtain ⟨mid, hmid, -⟩ | ⟨new, rfl, hnew⟩ := eq_append_of_append h
    · cases pre with
      | nil => exact absurd (List.cons.inj hmid).1 nofun
      | cons s pre =>
        obtain ⟨rfl, hgapeq⟩ := List.cons.inj hmid
        rw [List.append_eq] at hgapeq
        rw [hgapeq] at hgap
        rw [← Bool.not_eq_true, fires_of_last fun s hs => hgap.1 s (List.mem_append_left _ hs)]
        rintro ⟨-, -, hdelay, -⟩
        have hlt := hgap.2
        rw [elapsed_append] at hlt
        omega
    · have hrest : (after (before ++ .schedule i delay :: gap ++ new)).fires i home k = false :=
        ih hgaps hnew
      rwa [List.append_assoc] at hrest

theorem eq_append_of_schedule {pre' post' : List (Step n)}
    (h : pre ++ .schedule i delay :: post = pre' ++ .claim j home k :: post') :
    (∃ mid, pre = pre' ++ .claim j home k :: mid) ∨
      ∃ new, pre' = pre ++ .schedule i delay :: new ∧ post = new ++ .claim j home k :: post' := by
  obtain ⟨mid, rfl, -⟩ | ⟨new, rfl, hnew⟩ := eq_append_of_append h
  · exact .inl ⟨mid, rfl⟩
  · cases new with
    | nil => exact absurd (List.cons.inj hnew).1 nofun
    | cons s new =>
      obtain ⟨rfl, rfl⟩ := List.cons.inj hnew
      exact .inr ⟨new, rfl, rfl⟩

/-- Of a burst an attentive owner hears once, when the delay has passed since its last schedule. -/
theorem Attentive.hears_burst {before last : List (Step n)} {gaps : List (List (Step n))}
    (hgaps : ∀ gap ∈ gaps, (∀ s ∈ gap, s.supersedes i = false) ∧ elapsed gap < delay)
    (hlast : ∀ s ∈ last, s.supersedes i = false) (hpause : delay ≤ elapsed last)
    (h : Attentive (before ++ gaps.flatMap (.schedule i delay :: ·) ++ .schedule i delay :: last)) :
    ∃ heard, elapsed heard =
        elapsed (before ++ gaps.flatMap (.schedule i delay :: ·)) + delay ∧
      ∀ pre, before <+: pre ∧ FiresAfter
        (before ++ gaps.flatMap (.schedule i delay :: ·) ++ .schedule i delay :: last) i pre ↔
          pre = heard := by
  generalize hburst : before ++ gaps.flatMap (.schedule i delay :: ·) = burst at *
  have harrived := (hasArrived_iff burst i delay last).mpr ⟨hpause, undisturbed_of_forall hlast⟩
  obtain ⟨heard, rest, heq, hheard, hfirst⟩ := (h.done i _ harrived).first
  obtain ⟨mid, hmid⟩ | ⟨since, rfl, rfl⟩ := eq_append_of_schedule heq
  · -- the message is not there before its schedule
    have hprefix : heard <+: burst := ⟨_, hmid.symm⟩
    exact absurd (lt_scheduled_of_hasArrived hheard)
      (Nat.not_lt.mpr hprefix.sublist.countP_le)
  have hsince : ∀ s ∈ since, s.supersedes i = false :=
    fun s hs => hlast s (List.mem_append_left _ hs)
  have hdue := ((hasArrived_iff burst i delay since).mp hheard).1
  have hle := h.elapsed_le hsince hfirst
  refine ⟨burst ++ .schedule i delay :: since, ?_, fun pre => ⟨?_, ?_⟩⟩
  · rw [elapsed_append, elapsed_cons, Nat.le_antisymm hle hdue]
    exact congrArg (_ + ·) (Nat.zero_add _)
  · rintro ⟨⟨more, rfl⟩, home, k, post, hpre, hfires⟩
    obtain ⟨mid, hmid⟩ | ⟨new, hnew, hpost⟩ := eq_append_of_schedule hpre
    · rw [← hburst, List.append_assoc, List.append_cancel_left_eq] at hmid
      rw [not_fires_of_gaps hgaps hmid] at hfires
      cases hfires
    · rw [hnew] at hfires hpre ⊢
      have hkept : ∀ s ∈ new, s.supersedes i = false := fun s hs =>
        hlast s (hpost ▸ List.mem_append_left _ hs)
      obtain ⟨rfl, rfl, hdelay, hclaimed⟩ := (fires_of_last hkept).mp hfires
      refine eq_of_first (hpre.symm.trans heq) ?_ hclaimed hheard hfirst
      exact (hasArrived_iff _ _ _ _).mpr ⟨hdelay, undisturbed_of_forall hkept⟩
  · rintro rfl
    refine ⟨?_, i, scheduled i burst, rest, heq, ?_⟩
    · rw [← hburst, List.append_assoc]
      exact List.prefix_append _ _
    · exact (fires_of_last hsince).mpr ⟨rfl, rfl, hdue, hfirst⟩

/-! ## Runs can be checked -/

theorem claimed_iff :
    Claimed steps i k ↔
      ¬ ∀ pre s post, steps = pre ++ s :: post →
        ¬ (s = .claim i i k ∧ (after pre).hasArrived i k = true) := by
  constructor
  · rintro ⟨mid, rest, heq, harrived⟩ hnone
    exact hnone mid _ rest heq ⟨rfl, harrived⟩
  · intro h
    by_contra hclaimed
    refine h fun pre s post heq hs => ?_
    obtain ⟨rfl, harrived⟩ := hs
    exact hclaimed ⟨pre, post, heq, harrived⟩

instance : Decidable (Claimed steps i k) :=
  decidable_of_iff _ ((not_congr forall_split_iff).symm.trans claimed_iff.symm)

theorem allClaimed_iff :
    AllClaimed steps ↔ ∀ i, ∀ k < scheduled i steps,
      (after steps).hasArrived i k = true → Claimed steps i k :=
  forall_congr' fun _ => ⟨fun h k _ => h k,
    fun h k harrived => h k (lt_scheduled_of_hasArrived harrived) harrived⟩

instance : Decidable (AllClaimed steps) := decidable_of_iff _ allClaimed_iff.symm

theorem attentive_iff :
    Attentive steps ↔
      (∀ m, ∀ h : m < steps.length, (steps[m].isClaim = true ∨ AllClaimed (steps.take m)) ∧
        ∀ u ∈ (after (steps.take m)).pauses.timers,
          (after (steps.take m)).pauses.now + steps[m].span ≤ u.deadline) ∧ AllClaimed steps := by
  rw [← forall_split_iff (P := fun pre s => (s.isClaim = true ∨ AllClaimed pre) ∧
    ∀ u ∈ (after pre).pauses.timers, (after pre).pauses.now + s.span ≤ u.deadline)]
  exact ⟨fun h => ⟨fun pre s post heq => ⟨h.prompt pre s post heq, h.stops pre s post heq⟩, h.done⟩,
    fun h => ⟨fun pre s post heq => (h.1 pre s post heq).1,
      fun pre s post heq => (h.1 pre s post heq).2, h.2⟩⟩

instance : Decidable (Attentive steps) := decidable_of_iff _ attentive_iff.symm

/-- Whatever is scheduled, cancelled and claimed on `n` slots while time passes: a message arrives
iff its delay has passed and its slot was neither scheduled again nor cancelled before the deadline,
and it arrives once. A claim counts iff it is made on the slot the message was scheduled on, which
was not scheduled again since nor cancelled, and the message has arrived and was not claimed there
before. What is done with other slots has no part in what arrives for a slot and what counts on it.
And of a burst, in which each schedule of a slot comes before the delay of the last has passed, an
attentive owner hears once, when the delay has passed since the last of them. -/
theorem debounced :
    (∀ (pre : List (Step n)) (i : Fin n) (delay : Nat) (post : List (Step n)),
      (after (pre ++ .schedule i delay :: post)).hasArrived i (scheduled i pre) = true ↔
        delay ≤ elapsed post ∧ Undisturbed i delay post) ∧
    (∀ steps : List (Step n), (after steps).pauses.sent.Nodup) ∧
    (∀ (steps : List (Step n)) (i home : Fin n) (k : Nat),
      (after steps).fires i home k = true ↔
        home = i ∧ (after steps).hasArrived i k = true ∧ IsLatest steps i k ∧
          ¬ Claimed steps i k) ∧
    (∀ (steps : List (Step n)) (i : Fin n),
      (∀ k, (after (alone i steps)).hasArrived i k = (after steps).hasArrived i k) ∧
        ∀ home k, (after (alone i steps)).fires i home k = (after steps).fires i home k) ∧
    ∀ (before : List (Step n)) (gaps : List (List (Step n))) (last : List (Step n)) (i : Fin n)
      (delay : Nat),
      (∀ gap ∈ gaps, (∀ s ∈ gap, s.supersedes i = false) ∧ elapsed gap < delay) →
      (∀ s ∈ last, s.supersedes i = false) → delay ≤ elapsed last →
      let burst := before ++ gaps.flatMap (.schedule i delay :: ·)
      Attentive (burst ++ .schedule i delay :: last) →
        ∃ heard, elapsed heard = elapsed burst + delay ∧
          ∀ pre, before <+: pre ∧ FiresAfter (burst ++ .schedule i delay :: last) i pre ↔
            pre = heard := by
  refine ⟨hasArrived_iff, fun steps => ?_, fun steps i home k => fires_iff, fun steps i => ?_, ?_⟩
  · exact (List.nodup_append.mp (sound_after steps).once).2.1
  · exact ⟨hasArrived_alone i steps, fires_alone i steps⟩
  · intro before gaps last i delay hgaps hlast hpause burst hattentive
    exact hattentive.hears_burst hgaps hlast hpause

/-- Two schedules on one slot, with a message for another slot between them. -/
theorem debounced_of_burst :
    let before : List (Step 2) := [.schedule 1 4, .advance 2]
    let gap : List (Step 2) := [.advance 2, .claim 1 1 0, .schedule 1 9]
    let last : List (Step 2) := [.advance 3, .claim 0 0 1, .advance 1]
    let burst := before ++ [gap].flatMap (.schedule 0 3 :: ·)
    Attentive (burst ++ .schedule 0 3 :: last) ∧
      ∃ heard, elapsed heard = 7 ∧
        ∀ pre, before <+: pre ∧ FiresAfter (burst ++ .schedule 0 3 :: last) 0 pre ↔
          pre = heard := by
  intro before gap last burst
  have hattentive : Attentive (burst ++ .schedule 0 3 :: last) := by decide
  exact ⟨hattentive, debounced.2.2.2.2 before [gap] last 0 3 (by decide) (by decide) (by decide)
    hattentive⟩

end Vigil

end WorkflowLint

import WorkflowLint.Proofs.Settings.Laying
import Mathlib.Data.List.Basic
import Mathlib.Data.List.Pairwise
/-!
# Which layer decides

A setting is decided by the last layer that gives it a value: layers of a greater scope come later,
and those of one scope as given (`Prevails`). What counts as a value differs. A path counts where
its scope may choose one and something is left of it, and a severity where it is valid; so a value
that does not count never hides an earlier one that does (`resolve_decided`).

The order in which layers are laid is that of the three scopes one after another
(`layingOrder_eq`), so only the order within each scope is of any account. A fold that keeps what a
layer leaves open comes to the last value that was given (`foldl_last`), for a setting over the
layers as for one kind of finding over the severities of a layer.
-/

namespace WorkflowLint

variable {α β σ : Type}

/-! ## The order of layers -/

/-- The layers of each scope as given, one scope after another. -/
def inScopeOrder (layers : List (Scope × Layer)) : List (Scope × Layer) :=
  [Scope.default, .user, .workspace].flatMap fun scope => layers.filter (·.1 = scope)

/-- Two lists have the same layers in the same order within each scope: the one is a permutation of
the other that at most moves layers of different scopes past each other. -/
def SameInScopes (layers layers' : List (Scope × Layer)) : Prop :=
  ∀ scope : Scope, layers.filter (·.1 = scope) = layers'.filter (·.1 = scope)

theorem Scope.rank_injective : Function.Injective Scope.rank := by
  intro s s' h
  cases s <;> cases s' <;> simp [Scope.rank] at h ⊢

section Order

variable (layers : List (Scope × Layer))

theorem perm_layingOrder : (layingOrder layers).Perm layers := List.mergeSort_perm layers _

theorem Scope.rank_trans (a b c : Scope × Layer) (hab : decide (a.1.rank ≤ b.1.rank) = true)
    (hbc : decide (b.1.rank ≤ c.1.rank) = true) : decide (a.1.rank ≤ c.1.rank) = true :=
  decide_eq_true (Nat.le_trans (of_decide_eq_true hab) (of_decide_eq_true hbc))

theorem Scope.rank_total (a b : Scope × Layer) :
    (decide (a.1.rank ≤ b.1.rank) || decide (b.1.rank ≤ a.1.rank)) = true := by
  simpa using Nat.le_total a.1.rank b.1.rank

theorem pairwise_layingOrder :
    (layingOrder layers).Pairwise fun a b => a.1.rank ≤ b.1.rank :=
  (List.pairwise_mergeSort Scope.rank_trans Scope.rank_total layers).imp of_decide_eq_true

theorem filter_layingOrder (scope : Scope) :
    (layingOrder layers).filter (·.1 = scope) = layers.filter (·.1 = scope) := by
  have hequal : (layers.filter (·.1 = scope)).Pairwise fun a b =>
      decide (a.1.rank ≤ b.1.rank) = true := by
    refine List.pairwise_of_forall_mem_list fun a ha b hb => ?_
    have hsa : a.1 = scope := by simpa using List.of_mem_filter ha
    have hsb : b.1 = scope := by simpa using List.of_mem_filter hb
    simp [hsa, hsb]
  have hsub : (layers.filter (·.1 = scope)).Sublist (layingOrder layers) :=
    List.sublist_mergeSort Scope.rank_trans Scope.rank_total hequal List.filter_sublist
  have hfiltered := hsub.filter (·.1 = scope)
  simp only [List.filter_filter, Bool.and_self] at hfiltered
  exact (hfiltered.eq_of_length ((perm_layingOrder layers).filter _).length_eq.symm).symm

variable {layers}

theorem filter_eq_nil_of_lt {scope scope' : Scope} (h : ∀ sl ∈ layers, scope.rank ≤ sl.1.rank)
    (hlt : scope'.rank < scope.rank) : layers.filter (·.1 = scope') = [] := by
  refine List.filter_eq_nil_iff.mpr fun sl hsl heq => ?_
  have hle := h sl hsl
  rw [of_decide_eq_true heq] at hle
  exact absurd hlt (Nat.not_lt.mpr hle)

theorem eq_inScopeOrder (h : layers.Pairwise fun a b => a.1.rank ≤ b.1.rank) :
    layers = inScopeOrder layers := by
  induction layers with
  | nil => rfl
  | cons sl rest ih =>
    obtain ⟨hsl, hrest⟩ := List.pairwise_cons.mp h
    have hih := ih hrest
    obtain ⟨scope, l⟩ := sl
    simp only [inScopeOrder, List.flatMap_cons, List.flatMap_nil, List.append_nil] at hih ⊢
    -- no later layer is of a lesser scope
    cases scope with
    | default => simpa using hih
    | user =>
      have hdefault : rest.filter (·.1 = .default) = [] := filter_eq_nil_of_lt hsl (Nat.succ_pos _)
      rw [hdefault] at hih
      simpa [hdefault] using hih
    | workspace =>
      have hdefault : rest.filter (·.1 = .default) = [] := filter_eq_nil_of_lt hsl (Nat.succ_pos _)
      have huser : rest.filter (·.1 = .user) = [] := filter_eq_nil_of_lt hsl (Nat.lt_succ_self 1)
      rw [hdefault, huser] at hih
      simpa [hdefault, huser] using hih

theorem layingOrder_eq : layingOrder layers = inScopeOrder layers := by
  rw [eq_inScopeOrder (pairwise_layingOrder layers), inScopeOrder, inScopeOrder]
  simp only [filter_layingOrder]

theorem SameInScopes.layingOrder_eq {layers' : List (Scope × Layer)}
    (h : SameInScopes layers layers') : layingOrder layers = layingOrder layers' := by
  rw [WorkflowLint.layingOrder_eq, WorkflowLint.layingOrder_eq, inScopeOrder, inScopeOrder]
  simp only [h _]

end Order

/-! ## The last value -/

/-- What the last layer that gives a value gives, if there is one: no layer before it that gives one
is of a greater scope, and those after it that give one are of lesser scopes. -/
def Prevails (gives : Scope × Layer → Option α) (layers : List (Scope × Layer)) :
    Option α → Prop
  | none => ∀ sl ∈ layers, gives sl = none
  | some a => ∃ pre sl post, layers = pre ++ sl :: post ∧ gives sl = some a ∧
      (∀ other ∈ pre, gives other ≠ none → other.1.rank ≤ sl.1.rank) ∧
      ∀ other ∈ post, gives other ≠ none → other.1.rank < sl.1.rank

/-- A setting has the value of the last layer that gives one, else its default. -/
def Decides (gives : Scope × Layer → Option α) (layers : List (Scope × Layer)) (default value : α) :
    Prop :=
  ∃ last, Prevails gives layers last ∧ value = last.getD default

/-- The last of what `f` finds in a list. -/
def lastGiven? (f : β → Option α) (l : List β) : Option α := l.reverse.findSome? f

theorem lastGiven?_cons (f : β → Option α) (b : β) (l : List β) :
    lastGiven? f (b :: l) = (lastGiven? f l).or (f b) := by
  rw [lastGiven?, List.reverse_cons, List.findSome?_append, List.findSome?_singleton, ← lastGiven?]

/-- A fold that keeps what is left open comes to what was given last. -/
theorem foldl_last (get : σ → Option α) {gives : β → Option α} {step : σ → β → σ}
    (hstep : ∀ s b, get (step s b) = (gives b).or (get s)) (l : List β) (s : σ) :
    get (l.foldl step s) = (lastGiven? gives l).or (get s) := by
  induction l generalizing s with
  | nil => rfl
  | cons b l ih => rw [List.foldl_cons, ih, hstep, lastGiven?_cons, Option.or_assoc]

theorem foldl_last_getD (get : σ → α) {gives : β → Option α} {step : σ → β → σ}
    (hstep : ∀ s b, get (step s b) = (gives b).getD (get s)) (l : List β) (s : σ) :
    get (l.foldl step s) = (lastGiven? gives l).getD (get s) := by
  have hsome : ∀ s b, some (get (step s b)) = (gives b).or (some (get s)) := fun s b => by
    rw [hstep, Option.or_some]
  have hlast := foldl_last (fun s => some (get s)) hsome l s
  rw [Option.or_some] at hlast
  exact Option.some.inj hlast

/-- What was given last in the order of laying prevails in the list as it was given. -/
theorem prevails_lastGiven? (gives : Scope × Layer → Option α) (layers : List (Scope × Layer)) :
    Prevails gives layers (lastGiven? gives (layingOrder layers)) := by
  cases hlast : lastGiven? gives (layingOrder layers) with
  | none =>
    intro sl hsl
    refine List.findSome?_eq_none_iff.mp hlast sl ?_
    rwa [List.mem_reverse, (perm_layingOrder layers).mem_iff]
  | some a =>
    obtain ⟨later, sl, earlier, hsplit, hgives, hlater⟩ := List.findSome?_eq_some_iff.mp hlast
    have hordered : layingOrder layers = earlier.reverse ++ sl :: later.reverse := by
      simpa using congrArg List.reverse hsplit
    have hsorted := pairwise_layingOrder layers
    rw [hordered, List.pairwise_append, List.pairwise_cons] at hsorted
    obtain ⟨-, -, hearlier⟩ := hsorted
    -- of the same scope, the same layers come before and after
    have hscope := filter_layingOrder layers sl.1
    rw [hordered, List.filter_append, List.filter_cons_of_pos (by simp)] at hscope
    obtain ⟨pre, rest, hlayers, hpre, hrest⟩ := List.filter_eq_append_iff.mp hscope.symm
    obtain ⟨before, post, hbefore, hnone, -, hpost⟩ := List.filter_eq_cons_iff.mp hrest
    have hmem : ∀ other ∈ layers, gives other ≠ none → other.1.rank ≤ sl.1.rank := by
      intro other hother hvalue
      rw [← (perm_layingOrder layers).mem_iff, hordered, List.mem_append, List.mem_cons,
        List.mem_reverse, List.mem_reverse] at hother
      rcases hother with hother | rfl | hother
      · exact hearlier other (List.mem_reverse.mpr hother) sl List.mem_cons_self
      · exact Nat.le_refl _
      · exact absurd (hlater other hother) hvalue
    refine ⟨pre ++ before, sl, post, by rw [hlayers, hbefore, List.append_assoc], hgives, ?_, ?_⟩
    · intro other hother
      refine hmem other ?_
      rw [hlayers, hbefore, ← List.append_assoc]
      exact List.mem_append_left _ hother
    · intro other hother hvalue
      refine Nat.lt_of_le_of_ne (hmem other ?_ hvalue) fun heq => ?_
      · rw [hlayers, hbefore, List.mem_append, List.mem_append, List.mem_cons]
        exact .inr (.inr (.inr hother))
      · have hsame : other ∈ post.filter (·.1 = sl.1) :=
          List.mem_filter.mpr ⟨hother, decide_eq_true (Scope.rank_injective heq)⟩
        rw [hpost, List.mem_filter, List.mem_reverse] at hsame
        exact hvalue (hlater other hsame.1)

/-! ## Severities -/

/-- The severity that an entry gives a kind of finding, if it is valid. -/
def Severity.given? (kind : String) (kv : String × String) : Option Severity :=
  if kv.1 = kind then Severity.ofName? kv.2 else none

/-- The severity a layer gives a kind of finding: that of its valid entry. -/
def Layer.severity? (kind : String) (l : Layer) : Option Severity :=
  lastGiven? (Severity.given? kind) (l.ruleSeverity.getD [])

/-- A layer without its invalid severities. -/
def Layer.withoutInvalid (sl : Scope × Layer) : Scope × Layer :=
  (sl.1, { sl.2 with
    ruleSeverity := sl.2.ruleSeverity.map (·.filter fun kv => (Severity.ofName? kv.2).isSome) })

theorem get?_overrule (kind : String) (t : Table String Severity) (kv : String × String) :
    (Settings.overrule t kv).get? kind = (Severity.given? kind kv).or (t.get? kind) := by
  rw [Settings.overrule, Severity.given?]
  cases hvalid : Severity.ofName? kv.2 with
  | none => simp
  | some severity =>
    rw [Table.get?_insert]
    by_cases hk : kv.1 = kind
    · rw [if_pos hk, if_pos hk.symm, Option.some_or]
    · rw [if_neg hk, if_neg (Ne.symm hk), Option.none_or]

theorem foldl_overrule_filter (kvs : List (String × String)) (t : Table String Severity) :
    (kvs.filter fun kv => (Severity.ofName? kv.2).isSome).foldl Settings.overrule t =
      kvs.foldl Settings.overrule t := by
  rw [List.foldl_filter]
  refine List.foldl_ext _ _ t fun t kv _ => ?_
  rw [Settings.overrule]
  cases Severity.ofName? kv.2 <;> rfl

theorem under_withoutInvalid {env : Environment} {trusted : Bool} (s : Settings)
    (sl : Scope × Layer) :
    s.under env trusted (Layer.withoutInvalid sl) = s.under env trusted sl := by
  have hsame : ((Layer.withoutInvalid sl).2.ruleSeverity.getD []).foldl Settings.overrule
      s.ruleSeverity = (sl.2.ruleSeverity.getD []).foldl Settings.overrule s.ruleSeverity := by
    rw [Layer.withoutInvalid]
    cases sl.2.ruleSeverity with
    | none => rfl
    | some kvs => exact foldl_overrule_filter kvs s.ruleSeverity
  rw [Settings.under, Settings.under, hsame]
  rfl

/-! ## Settings -/

/-- Each setting has the value of the last layer that gives one, else its default. -/
structure Settings.DecidedBy (s : Settings) (env : Environment) (trusted : Bool)
    (layers : List (Scope × Layer)) : Prop where
  enabled : Decides (·.2.enabled) layers true s.enabled
  trigger : Decides (·.2.trigger) layers .onType s.trigger
  ignorePatterns : Decides (·.2.ignore) layers [] s.ignorePatterns
  logLevel : Decides (·.2.logLevel) layers .info s.logLevel
  /-- The pause is brought into its range. -/
  debounce : Decides (·.2.debounce.map Settings.clampDebounce) layers 300 s.debounce
  least : 50 ≤ s.debounce
  greatest : s.debounce ≤ 5000
  /-- A path counts where its scope may choose one and something is left of it. -/
  executable : Decides (fun sl => env.chosen (sl.1.choosesTool trusted) sl.2.executable) layers
    "actionlint" s.executable
  shellcheck : Prevails (fun sl => env.chosen (sl.1.choosesTool trusted) sl.2.shellcheck) layers
    s.shellcheck
  pyflakes : Prevails (fun sl => env.chosen (sl.1.choosesTool trusted) sl.2.pyflakes) layers
    s.pyflakes
  /-- No layer adds arguments when the workspace is not trusted. -/
  extraArgs : Decides (fun sl => if trusted then sl.2.extraArgs else none) layers [] s.extraArgs
  /-- A severity counts where it is valid. -/
  ruleSeverity : ∀ kind, Prevails (·.2.severity? kind) layers (s.ruleSeverity.get? kind)
  trusted : s.trusted = trusted

section Settings

variable {env : Environment} {trusted : Bool}

theorem decides_resolve (get : Settings → α) {gives : Scope × Layer → Option α}
    (hunder : ∀ s sl, get (s.under env trusted sl) = (gives sl).getD (get s))
    (layers : List (Scope × Layer)) :
    Decides gives layers (get { trusted }) (get (resolve env trusted layers).settings) := by
  refine ⟨_, prevails_lastGiven? gives layers, ?_⟩
  rw [settings_resolve, foldl_last_getD get hunder]

theorem prevails_resolve (get : Settings → Option α) {gives : Scope × Layer → Option α}
    (hunder : ∀ s sl, get (s.under env trusted sl) = (gives sl).or (get s))
    (hdefault : get { trusted } = none) (layers : List (Scope × Layer)) :
    Prevails gives layers (get (resolve env trusted layers).settings) := by
  rw [settings_resolve, foldl_last get hunder, hdefault, Option.or_none]
  exact prevails_lastGiven? gives layers

theorem debounce_range {layers : List (Scope × Layer)} {ms : Nat}
    (h : Decides (·.2.debounce.map Settings.clampDebounce) layers 300 ms) : 50 ≤ ms ∧ ms ≤ 5000 := by
  obtain ⟨last, hlast, rfl⟩ := h
  cases last with
  | none => decide
  | some ms =>
    obtain ⟨-, sl, -, -, hgives, -⟩ := hlast
    obtain ⟨requested, -, rfl⟩ := Option.map_eq_some_iff.mp hgives
    simp only [Option.getD_some, Settings.clampDebounce, Settings.minDebounce, Settings.maxDebounce]
    omega

theorem decided_resolve (layers : List (Scope × Layer)) :
    (resolve env trusted layers).settings.DecidedBy env trusted layers where
  enabled := decides_resolve (·.enabled) (fun _ _ => rfl) layers
  trigger := decides_resolve (·.trigger) (fun _ _ => rfl) layers
  ignorePatterns := decides_resolve (·.ignorePatterns) (fun _ _ => rfl) layers
  logLevel := decides_resolve (·.logLevel) (fun _ _ => rfl) layers
  debounce := decides_resolve (·.debounce) (fun _ _ => rfl) layers
  least := (debounce_range (decides_resolve (·.debounce) (fun _ _ => rfl) layers)).1
  greatest := (debounce_range (decides_resolve (·.debounce) (fun _ _ => rfl) layers)).2
  executable := decides_resolve (·.executable) (fun _ _ => rfl) layers
  shellcheck := prevails_resolve (·.shellcheck) (fun _ _ => rfl) rfl layers
  pyflakes := prevails_resolve (·.pyflakes) (fun _ _ => rfl) rfl layers
  extraArgs := decides_resolve (·.extraArgs) (fun _ _ => by cases trusted <;> rfl) layers
  ruleSeverity kind := by
    refine prevails_resolve (fun s => s.ruleSeverity.get? kind) (fun s sl => ?_) rfl layers
    exact foldl_last (·.get? kind) (fun t kv => get?_overrule kind t kv) _ s.ruleSeverity
  trusted := by
    rw [settings_resolve]
    exact List.foldlRecOn (motive := fun s : Settings => s.trusted = trusted) _ _ rfl fun _ hs _ _ => hs

theorem settings_resolve_withoutInvalid (layers : List (Scope × Layer)) :
    (resolve env trusted (layers.map Layer.withoutInvalid)).settings =
      (resolve env trusted layers).settings := by
  have hordered : (layingOrder layers).map Layer.withoutInvalid =
      layingOrder (layers.map Layer.withoutInvalid) := List.map_mergeSort fun _ _ _ _ => rfl
  rw [settings_resolve, settings_resolve, ← hordered, List.foldl_map]
  simp only [under_withoutInvalid]

/-- **The last layer decides.** Only the order within each scope is of any account; each setting has
the value of the last layer that gives one; and invalid severities change nothing. -/
theorem resolve_decided (layers : List (Scope × Layer)) (trusted : Bool) (env : Environment) :
    (∀ layers', SameInScopes layers layers' →
      resolve env trusted layers' = resolve env trusted layers) ∧
    (resolve env trusted layers).settings.DecidedBy env trusted layers ∧
    (resolve env trusted (layers.map Layer.withoutInvalid)).settings =
      (resolve env trusted layers).settings := by
  refine ⟨fun layers' hsame => ?_, decided_resolve layers, settings_resolve_withoutInvalid layers⟩
  rw [resolve, resolve, hsame.layingOrder_eq]

/-- A workspace chooses the tool and an invalid severity before its user does, in the list. The user
names a blank helper, too long a pause and a valid severity. -/
theorem resolve_decided_of_overlap :
    let workspace := (Scope.workspace,
      { executable := some "./tool", ruleSeverity := some [("events", "loud")] : Layer })
    let user := (Scope.user,
      { shellcheck := some " ", debounce := some 9000, executable := some "lint"
        ruleSeverity := some [("events", "hint")] : Layer })
    let s := (resolve [] true [workspace, user]).settings
    resolve [] true [user, workspace] = resolve [] true [workspace, user] ∧
      s.executable = "./tool" ∧ s.shellcheck = none ∧ s.debounce = 5000 ∧
      s.ruleSeverity.get? "events" = some .hint := by
  intro workspace user s
  have hsame : SameInScopes [workspace, user] [user, workspace] := by
    intro scope
    cases scope <;> rfl
  have horder := (resolve_decided [workspace, user] true []).1 _ hsame
  have hordered : layingOrder [user, workspace] = [user, workspace] :=
    List.mergeSort_of_pairwise (by decide)
  have hs : s = (resolve [] true [user, workspace]).settings := congrArg Resolution.settings horder.symm
  refine ⟨horder, ?_⟩
  rw [hs, settings_resolve, hordered]
  decide +kernel

end Settings

end WorkflowLint

import WorkflowLint.Proofs.Settings.Overriding
/-!
# What is held back is told

Without trust, a path that a workspace sets and further arguments of any layer are held back, and
each of them leaves a warning (`Layer.restrictions`). All other warnings are about pauses and
severities, where trust plays no part. So the warnings of two resolutions of the same layers, one
with trust and one without, differ in the restrictions alone, and where there are none, the settings
are the same as well (`gate_told`).

The warnings that a layer adds do not depend on those before it (`Resolution.warnings_lay`), so the
warnings of a resolution are those of its layers one after another.
-/

namespace WorkflowLint

variable {α : Type} {env : Environment} {trusted : Bool}

/-! ## The warnings of a layer -/

/-- Whether a warning is about a value that was held back for want of trust. -/
def SettingsWarning.isRestriction : SettingsWarning → Bool
  | .restricted _ _ => true
  | _ => false

namespace Layer

/-- The keys of a layer that are held back without trust: those of the paths a workspace sets, and
that of further arguments. -/
def restrictedKeys (sl : Scope × Layer) : List String :=
  let path (key : String) (value : Option String) : List String :=
    if sl.1 = .workspace ∧ value ≠ none then [key] else []
  path "executable" sl.2.executable ++ path "shellcheck" sl.2.shellcheck ++
    path "pyflakes" sl.2.pyflakes ++
    if sl.2.extraArgs.getD [] = [] then [] else ["extra_args"]

/-- One warning for each key that is held back. -/
def restrictions (sl : Scope × Layer) : List SettingsWarning :=
  (restrictedKeys sl).map (.restricted sl.1)

/-- The warning of a pause that is out of range. -/
def clampings (l : Layer) : List SettingsWarning :=
  (l.debounce.toList.filter fun ms => Settings.clampDebounce ms ≠ ms).map fun ms =>
    .debounceClamped ms (Settings.clampDebounce ms)

/-- One warning for each invalid severity. -/
def invalidities (sl : Scope × Layer) : List SettingsWarning :=
  ((sl.2.ruleSeverity.getD []).filter fun kv => (Severity.ofName? kv.2).isNone).map fun kv =>
    .invalidSeverity sl.1 kv.1 kv.2

def warnings (trusted : Bool) (sl : Scope × Layer) : List SettingsWarning :=
  clampings sl.2 ++ (if trusted then [] else restrictions sl) ++ invalidities sl

end Layer

namespace Resolution

@[simp] theorem warnings_warn (r : Resolution) (w : SettingsWarning) :
    (r.warn w).warnings = r.warnings ++ [w] := rfl

@[simp] theorem warnings_change (r : Resolution) (f : Settings → Settings) :
    (r.change f).warnings = r.warnings := rfl

theorem warnings_apply_change (set : α → Settings → Settings) (value : Option α) (r : Resolution) :
    (apply value (fun a r => r.change (set a)) r).warnings = r.warnings := by
  cases value <;> rfl

theorem warnings_apply_setDebounce (l : Layer) (r : Resolution) :
    (apply l.debounce setDebounce r).warnings = r.warnings ++ l.clampings := by
  rw [Layer.clampings]
  cases l.debounce with
  | none => exact (List.append_nil _).symm
  | some ms =>
    have happlied : max Settings.minDebounce (min ms Settings.maxDebounce) =
        Settings.clampDebounce ms := rfl
    by_cases hclamped : Settings.clampDebounce ms = ms
    · simp [apply, setDebounce, happlied, hclamped]
    · simp [apply, setDebounce, happlied, hclamped]

theorem warnings_apply_setPath (allowed : Bool) (scope : Scope) (key : String)
    (set : String → Settings → Settings) (value : Option String) (r : Resolution) :
    (apply value (setPath env allowed scope key set) r).warnings =
      r.warnings ++ if allowed = false ∧ value ≠ none then [.restricted scope key] else [] := by
  cases value with
  | none => simp [apply]
  | some value =>
    cases allowed with
    | false => rfl
    | true =>
      by_cases hblank : env.expand (Text.trimmed value) = ""
      · simp [apply, setPath, hblank]
      · simp [apply, setPath, hblank]

theorem warnings_apply_setExtraArgs (scope : Scope) (value : Option (List String)) (r : Resolution) :
    (apply value (setExtraArgs trusted scope) r).warnings =
      r.warnings ++ if trusted then []
        else (if value.getD [] = [] then [] else ["extra_args"]).map (.restricted scope) := by
  cases value with
  | none => simp [apply]
  | some args =>
    cases trusted with
    | true => simp [apply, setExtraArgs]
    | false => cases args <;> simp [apply, setExtraArgs]

theorem warnings_setSeverities (scope : Scope) (kvs : List (String × String)) (r : Resolution) :
    (kvs.foldl (setSeverity scope) r).warnings =
      r.warnings ++ (kvs.filter fun kv => (Severity.ofName? kv.2).isNone).map fun kv =>
        .invalidSeverity scope kv.1 kv.2 := by
  induction kvs generalizing r with
  | nil => exact (List.append_nil _).symm
  | cons kv kvs ih =>
    rw [List.foldl_cons, ih, setSeverity]
    cases hvalid : Severity.ofName? kv.2 with
    | none => simp [hvalid]
    | some severity => simp [hvalid]

theorem warnings_apply_setSeverities (sl : Scope × Layer) (r : Resolution) :
    (apply sl.2.ruleSeverity (fun kvs r => kvs.foldl (setSeverity sl.1) r) r).warnings =
      r.warnings ++ Layer.invalidities sl := by
  rw [Layer.invalidities]
  cases sl.2.ruleSeverity with
  | none => exact (List.append_nil _).symm
  | some kvs => exact warnings_setSeverities sl.1 kvs r

/-- **The warnings a layer adds**, whatever was resolved before it. -/
theorem warnings_lay (r : Resolution) (sl : Scope × Layer) :
    (lay env trusted r sl).warnings = r.warnings ++ Layer.warnings trusted sl := by
  obtain ⟨scope, l⟩ := sl
  have hseverities := warnings_apply_setSeverities (scope, l)
  simp only [lay, hseverities, warnings_apply_setExtraArgs, warnings_apply_setPath,
    warnings_apply_change, warnings_apply_setDebounce]
  cases trusted with
  | true => simp [Layer.warnings]
  | false =>
    by_cases hscope : scope = .workspace
    · simp [Layer.warnings, Layer.restrictions, Layer.restrictedKeys, hscope, apply_ite (List.map _)]
    · simp [Layer.warnings, Layer.restrictions, Layer.restrictedKeys, hscope]

theorem warnings_foldl_lay (layers : List (Scope × Layer)) (r : Resolution) :
    (layers.foldl (lay env trusted) r).warnings =
      r.warnings ++ layers.flatMap (Layer.warnings trusted) := by
  induction layers generalizing r with
  | nil => exact (List.append_nil _).symm
  | cons sl layers ih =>
    rw [List.foldl_cons, ih, warnings_lay, List.append_assoc, List.flatMap_cons]

end Resolution

theorem warnings_resolve (layers : List (Scope × Layer)) :
    (resolve env trusted layers).warnings = (inScopeOrder layers).flatMap (Layer.warnings trusted) := by
  rw [resolve, Resolution.warnings_foldl_lay, layingOrder_eq]
  rfl

/-! ## Restrictions -/

namespace Layer

theorem filter_warnings (sl : Scope × Layer) :
    (warnings false sl).filter SettingsWarning.isRestriction = restrictions sl := by
  have hclampings : (clampings sl.2).filter SettingsWarning.isRestriction = [] :=
    List.filter_eq_nil_iff.mpr (List.forall_mem_map.mpr fun _ _ => Bool.false_ne_true)
  have hinvalidities : (invalidities sl).filter SettingsWarning.isRestriction = [] :=
    List.filter_eq_nil_iff.mpr (List.forall_mem_map.mpr fun _ _ => Bool.false_ne_true)
  have hrestrictions : (restrictions sl).filter SettingsWarning.isRestriction = restrictions sl :=
    List.filter_eq_self.mpr (List.forall_mem_map.mpr fun _ _ => rfl)
  rw [warnings, List.filter_append, List.filter_append, hclampings, hinvalidities]
  simpa using hrestrictions

theorem filter_not_warnings (trusted : Bool) (sl : Scope × Layer) :
    ((warnings trusted sl).filter fun w => !w.isRestriction) = warnings true sl := by
  have hclampings : (clampings sl.2).filter (fun w => !w.isRestriction) = clampings sl.2 :=
    List.filter_eq_self.mpr (List.forall_mem_map.mpr fun _ _ => rfl)
  have hinvalidities : (invalidities sl).filter (fun w => !w.isRestriction) = invalidities sl :=
    List.filter_eq_self.mpr (List.forall_mem_map.mpr fun _ _ => rfl)
  have hrestrictions : (restrictions sl).filter (fun w => !w.isRestriction) = [] :=
    List.filter_eq_nil_iff.mpr (List.forall_mem_map.mpr fun _ _ => Bool.false_ne_true)
  rw [warnings, warnings, List.filter_append, List.filter_append, hclampings, hinvalidities]
  cases trusted <;> simp [hrestrictions]

theorem restrictions_eq_nil {sl : Scope × Layer} (h : restrictions sl = []) :
    sl.2.extraArgs.getD [] = [] ∧ (sl.1 = .workspace →
      sl.2.executable = none ∧ sl.2.shellcheck = none ∧ sl.2.pyflakes = none) := by
  rw [restrictions, List.map_eq_nil_iff, restrictedKeys] at h
  simp only [List.append_eq_nil_iff, ite_eq_left_iff, ite_eq_right_iff, List.cons_ne_nil,
    imp_false, not_and, not_not] at h
  obtain ⟨⟨⟨hexecutable, hshellcheck⟩, hpyflakes⟩, hargs⟩ := h
  exact ⟨hargs, fun hscope => ⟨hexecutable hscope, hshellcheck hscope, hpyflakes hscope⟩⟩

end Layer

/-! ## Settings with trust and without -/

/-- The settings for a trusted workspace. -/
def Settings.trust (s : Settings) : Settings := { s with trusted := true }

theorem chosen_none (allowed : Bool) : env.chosen allowed none = none := by
  cases allowed <;> rfl

/-- Where nothing of a layer is held back, it does the same with trust and without. -/
theorem under_trust {sl : Scope × Layer} (hsl : Layer.restrictions sl = []) {s : Settings}
    (hs : s.extraArgs = []) :
    s.trust.under env true sl = (s.under env false sl).trust := by
  obtain ⟨hargs, hpaths⟩ := Layer.restrictions_eq_nil hsl
  simp only [Settings.under, Settings.trust, hs, hargs, if_true, Bool.false_eq_true, if_false]
  by_cases hscope : sl.1 = .workspace
  · obtain ⟨hexecutable, hshellcheck, hpyflakes⟩ := hpaths hscope
    simp only [hexecutable, hshellcheck, hpyflakes, chosen_none]
  · simp only [Scope.choosesTool, hscope, ne_eq, not_false_eq_true, decide_true, Bool.or_true]

theorem foldl_under_trust {layers : List (Scope × Layer)}
    (hlayers : ∀ sl ∈ layers, Layer.restrictions sl = []) {s : Settings} (hs : s.extraArgs = []) :
    layers.foldl (Settings.under env true) s.trust =
      (layers.foldl (Settings.under env false) s).trust := by
  induction layers generalizing s with
  | nil => rfl
  | cons sl layers ih =>
    obtain ⟨hsl, hlayers⟩ := List.forall_mem_cons.mp hlayers
    rw [List.foldl_cons, List.foldl_cons, under_trust hsl hs]
    -- without trust, no layer adds arguments
    exact ih hlayers hs

/-- **What is held back is told, and trust changes nothing else.** Without trust there is one warning
for each path that a layer of a workspace sets and one for each layer with further arguments; the
other warnings are those there are with trust. If nothing is held back, the settings are the same
with trust and without, but for being trusted. -/
theorem gate_told (env : Environment) (layers : List (Scope × Layer)) :
    let held := resolve env false layers
    let free := resolve env true layers
    (held.warnings.filter SettingsWarning.isRestriction).Perm (layers.flatMap Layer.restrictions) ∧
    (held.warnings.filter fun w => !w.isRestriction) = free.warnings ∧
    ((∀ w ∈ held.warnings, w.isRestriction = false) →
      free.settings = { held.settings with trusted := true } ∧ free.warnings = held.warnings) := by
  intro held free
  have hheld : held.warnings = (inScopeOrder layers).flatMap (Layer.warnings false) :=
    warnings_resolve layers
  have hfree : free.warnings = (inScopeOrder layers).flatMap (Layer.warnings true) :=
    warnings_resolve layers
  have hrestrictions : held.warnings.filter SettingsWarning.isRestriction =
      (inScopeOrder layers).flatMap Layer.restrictions := by
    rw [hheld, List.filter_flatMap]
    exact List.flatMap_congr fun sl _ => Layer.filter_warnings sl
  have hothers : (held.warnings.filter fun w => !w.isRestriction) = free.warnings := by
    rw [hheld, hfree, List.filter_flatMap]
    exact List.flatMap_congr fun sl _ => Layer.filter_not_warnings false sl
  refine ⟨?_, hothers, fun hnone => ⟨?_, ?_⟩⟩
  · rw [hrestrictions, ← layingOrder_eq]
    exact (perm_layingOrder layers).flatMap_right _
  · have hlayers : ∀ sl ∈ layingOrder layers, Layer.restrictions sl = [] := by
      intro sl hsl
      rw [layingOrder_eq] at hsl
      refine List.flatMap_eq_nil_iff.mp ?_ sl hsl
      rw [← hrestrictions, List.filter_eq_nil_iff]
      simpa using hnone
    rw [settings_resolve, settings_resolve]
    exact foldl_under_trust (s := {}) hlayers rfl
  · rw [← hothers, List.filter_eq_self]
    simpa using hnone

/-- A workspace that leaves out its arguments and gives an invalid severity, under a user who chooses
the tool. -/
theorem gate_told_of_harmless :
    let layers := [(Scope.user, { executable := some "lint" : Layer }),
      (Scope.workspace, { extraArgs := some [], ruleSeverity := some [("events", "loud")] })]
    let held := resolve [] false layers
    let free := resolve [] true layers
    held.warnings = [.invalidSeverity .workspace "events" "loud"] ∧
      free.settings = { held.settings with trusted := true } ∧ free.warnings = held.warnings := by
  intro layers held free
  have hwarnings : held.warnings = [.invalidSeverity .workspace "events" "loud"] := by
    rw [warnings_resolve]
    decide +kernel
  refine ⟨hwarnings, (gate_told [] layers).2.2 ?_⟩
  show ∀ w ∈ held.warnings, w.isRestriction = false
  rw [hwarnings]
  decide

end WorkflowLint

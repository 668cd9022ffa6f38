import WorkflowLint.Settings.Resolution
/-!
# What a layer does to the settings

`Resolution.lay` applies the settings of a layer one by one and leaves warnings on the way. The
settings it comes to depend on the settings before it only, and `Settings.under` says field by field
how (`Resolution.settings_lay`). So the settings of a resolution are those of a fold without
warnings (`settings_resolve`).
-/

namespace WorkflowLint

/-- A debounce brought into its range. -/
def Settings.clampDebounce (requested : Nat) : Nat :=
  max minDebounce (min requested maxDebounce)

/-- What a path setting comes to: nothing where it may not be set, when it is blank and when it
expands to nothing. -/
def Environment.chosen (env : Environment) (allowed : Bool) (value : Option String) :
    Option String :=
  if allowed then
    value.bind fun v =>
      let path := env.expand (Text.trimmed v)
      if path = "" then none else some path
  else none

/-- The severity overrides with one more, if it is valid. -/
def Settings.overrule (severities : Table String Severity) (kv : String × String) :
    Table String Severity :=
  match Severity.ofName? kv.2 with
  | some severity => severities.insert kv.1 severity
  | none => severities

/-- Whether a layer may choose the tool and its helpers. -/
def Scope.choosesTool (trusted : Bool) (scope : Scope) : Bool := trusted || scope ≠ .workspace

def Settings.under (env : Environment) (trusted : Bool) (s : Settings) (sl : Scope × Layer) :
    Settings :=
  let path := env.chosen (sl.1.choosesTool trusted)
  { enabled := sl.2.enabled.getD s.enabled
    executable := (path sl.2.executable).getD s.executable
    trigger := sl.2.trigger.getD s.trigger
    debounce := (sl.2.debounce.map clampDebounce).getD s.debounce
    ignorePatterns := sl.2.ignore.getD s.ignorePatterns
    shellcheck := (path sl.2.shellcheck).or s.shellcheck
    pyflakes := (path sl.2.pyflakes).or s.pyflakes
    extraArgs := if trusted then sl.2.extraArgs.getD s.extraArgs else s.extraArgs
    ruleSeverity := (sl.2.ruleSeverity.getD []).foldl overrule s.ruleSeverity
    logLevel := sl.2.logLevel.getD s.logLevel
    trusted := s.trusted }

namespace Resolution

variable {α : Type} {env : Environment} {trusted : Bool}

@[simp] theorem settings_warn (r : Resolution) (w : SettingsWarning) :
    (r.warn w).settings = r.settings := rfl

@[simp] theorem settings_change (r : Resolution) (f : Settings → Settings) :
    (r.change f).settings = f r.settings := rfl

theorem settings_apply_change (set : α → Settings → Settings) (get : Settings → α)
    (hset : ∀ s, set (get s) s = s) (value : Option α) (r : Resolution) :
    (apply value (fun a r => r.change (set a)) r).settings =
      set (value.getD (get r.settings)) r.settings := by
  cases value with
  | none => exact (hset r.settings).symm
  | some a => rfl

theorem settings_apply_setDebounce (value : Option Nat) (r : Resolution) :
    (apply value setDebounce r).settings =
      { r.settings with
        debounce := (value.map Settings.clampDebounce).getD r.settings.debounce } := by
  cases value with
  | none => rfl
  | some requested =>
    rw [apply, setDebounce]
    split <;> rfl

theorem settings_apply_setPath (env : Environment) (wrap : String → α) (set : α → Settings → Settings)
    (get : Settings → α) (hset : ∀ s, set (get s) s = s) (allowed : Bool) (scope : Scope)
    (key : String) (value : Option String) (r : Resolution) :
    (apply value (setPath env allowed scope key fun p => set (wrap p)) r).settings =
      set (((env.chosen allowed value).map wrap).getD (get r.settings)) r.settings := by
  cases value with
  | none => cases allowed <;> exact (hset r.settings).symm
  | some value =>
    cases allowed with
    | false => exact (hset r.settings).symm
    | true =>
      by_cases hp : env.expand (Text.trimmed value) = "" <;>
        simp [apply, setPath, Environment.chosen, hp, hset]

theorem settings_apply_setExtraArgs (scope : Scope) (value : Option (List String))
    (r : Resolution) :
    (apply value (setExtraArgs trusted scope) r).settings =
      { r.settings with
        extraArgs := if trusted then value.getD r.settings.extraArgs else r.settings.extraArgs } := by
  cases value with
  | none => cases trusted <;> rfl
  | some args =>
    cases trusted with
    | true => rfl
    | false => cases args <;> rfl

theorem settings_setSeverities (scope : Scope) (kvs : List (String × String)) (r : Resolution) :
    (kvs.foldl (setSeverity scope) r).settings =
      { r.settings with ruleSeverity := kvs.foldl Settings.overrule r.settings.ruleSeverity } := by
  induction kvs generalizing r with
  | nil => rfl
  | cons kv kvs ih =>
    rw [List.foldl_cons, ih, List.foldl_cons, setSeverity, Settings.overrule]
    cases Severity.ofName? kv.2 <;> rfl

theorem settings_apply_setSeverities (scope : Scope) (value : Option (List (String × String)))
    (r : Resolution) :
    (apply value (fun kvs r => kvs.foldl (setSeverity scope) r) r).settings =
      { r.settings with
        ruleSeverity := (value.getD []).foldl Settings.overrule r.settings.ruleSeverity } := by
  cases value with
  | none => rfl
  | some kvs => exact settings_setSeverities scope kvs r

/-- **What a layer does to the settings**, whatever the warnings so far. -/
theorem settings_lay (r : Resolution) (sl : Scope × Layer) :
    (lay env trusted r sl).settings = r.settings.under env trusted sl := by
  obtain ⟨scope, l⟩ := sl
  have henabled := settings_apply_change (fun b s => { s with enabled := b }) (·.enabled)
    (fun _ => rfl) l.enabled
  have htrigger := settings_apply_change (fun t s => { s with trigger := t }) (·.trigger)
    (fun _ => rfl) l.trigger
  have hignore := settings_apply_change (fun ps s => { s with ignorePatterns := ps })
    (·.ignorePatterns) (fun _ => rfl) l.ignore
  have hlog := settings_apply_change (fun v s => { s with logLevel := v }) (·.logLevel)
    (fun _ => rfl) l.logLevel
  have hexecutable := settings_apply_setPath env id (fun p s => { s with executable := p })
    (·.executable) (fun _ => rfl)
  have hshellcheck := settings_apply_setPath env some (fun p s => { s with shellcheck := p })
    (·.shellcheck) (fun _ => rfl)
  have hpyflakes := settings_apply_setPath env some (fun p s => { s with pyflakes := p })
    (·.pyflakes) (fun _ => rfl)
  simp only [id] at hexecutable
  simp only [lay, settings_apply_setSeverities, settings_apply_setExtraArgs, hpyflakes, hshellcheck,
    hexecutable, hlog, hignore, settings_apply_setDebounce, htrigger, henabled]
  have hor : ∀ o s : Option String, (o.map some).getD s = o.or s := fun o _ => by cases o <;> rfl
  simp only [Settings.under, Scope.choosesTool, Option.map_id, id, hor]

end Resolution

variable {env : Environment} {trusted : Bool}

theorem settings_resolve (layers : List (Scope × Layer)) :
    (resolve env trusted layers).settings =
      (layingOrder layers).foldl (Settings.under env trusted) { trusted } := by
  exact (List.foldl_hom Resolution.settings fun r sl => (Resolution.settings_lay r sl).symm).symm

end WorkflowLint

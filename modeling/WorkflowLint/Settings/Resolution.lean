import WorkflowLint.Settings.Layer
import WorkflowLint.Settings.Reference
/-!
# Resolving layers

Layers are laid over the defaults in the order of their scopes, those of one scope as given. What
a workspace may say depends on trust: in an untrusted workspace its own layer chooses neither the
executable nor the helpers, and no layer adds arguments. Whatever is not applied as written leaves
a warning.
-/

namespace WorkflowLint

/-- Where a layer comes from, in ascending order of precedence. -/
inductive Scope where
  | default
  | user
  | workspace
  deriving DecidableEq, Inhabited

namespace Scope

def name : Scope → String
  | .default => "default"
  | .user => "user"
  | .workspace => "workspace"

/-- The place of a scope in the order of precedence. -/
def rank : Scope → Nat
  | .default => 0
  | .user => 1
  | .workspace => 2

end Scope

/-- A setting that was not applied as written. -/
inductive SettingsWarning where
  | invalidSeverity (scope : Scope) (kind value : String)
  | restricted (scope : Scope) (key : String)
  | debounceClamped (requested applied : Nat)
  deriving DecidableEq, Inhabited

def SettingsWarning.text : SettingsWarning → String
  | .invalidSeverity scope kind value =>
    s!"{scope.name} setting rule_severity.{kind} = '{value}' is not a valid severity; ignored"
  | .restricted scope key =>
    s!"{scope.name} setting '{key}' is ignored in an untrusted workspace"
  | .debounceClamped requested applied =>
    s!"debounce_ms = {requested} is out of range; using {applied}"

/-- Settings and the warnings their resolution left. -/
structure Resolution where
  settings : Settings
  warnings : List SettingsWarning := []
  deriving DecidableEq, Inhabited

namespace Resolution

def warn (r : Resolution) (w : SettingsWarning) : Resolution :=
  { r with warnings := r.warnings ++ [w] }

def change (r : Resolution) (f : Settings → Settings) : Resolution :=
  { r with settings := f r.settings }

def apply {α : Type} (value : Option α) (f : α → Resolution → Resolution)
    (r : Resolution) : Resolution :=
  match value with
  | none => r
  | some a => f a r

/-- The pause, brought into its range. -/
def setDebounce (requested : Nat) (r : Resolution) : Resolution :=
  let applied := max Settings.minDebounce (min requested Settings.maxDebounce)
  let r := if applied = requested then r else r.warn (.debounceClamped requested applied)
  r.change fun s => { s with debounce := applied }

/-- A path: only where the scope may choose one, with references replaced, and only if something
is left of it. -/
def setPath (env : Environment) (allowed : Bool) (scope : Scope) (key : String)
    (set : String → Settings → Settings) (value : String) (r : Resolution) : Resolution :=
  if !allowed then r.warn (.restricted scope key)
  else
    let path := env.expand (Text.trimmed value)
    if path = "" then r else r.change (set path)

/-- Further arguments: only in a trusted workspace. -/
def setExtraArgs (trusted : Bool) (scope : Scope) (args : List String) (r : Resolution) :
    Resolution :=
  if trusted then r.change fun s => { s with extraArgs := args }
  else if args.isEmpty then r
  else r.warn (.restricted scope "extra_args")

def setSeverity (scope : Scope) (r : Resolution) (kv : String × String) : Resolution :=
  match Severity.ofName? kv.2 with
  | some severity =>
    r.change fun s => { s with ruleSeverity := s.ruleSeverity.insert kv.1 severity }
  | none => r.warn (.invalidSeverity scope kv.1 kv.2)

def lay (env : Environment) (trusted : Bool) (r : Resolution) (sl : Scope × Layer) : Resolution :=
  let (scope, l) := sl
  let allowed := trusted || scope ≠ .workspace
  r
  |> apply l.enabled (fun b r => r.change fun s => { s with enabled := b })
  |> apply l.trigger (fun t r => r.change fun s => { s with trigger := t })
  |> apply l.debounce setDebounce
  |> apply l.ignore (fun ps r => r.change fun s => { s with ignorePatterns := ps })
  |> apply l.logLevel (fun v r => r.change fun s => { s with logLevel := v })
  |> apply l.executable
      (setPath env allowed scope "executable" fun p s => { s with executable := p })
  |> apply l.shellcheck
      (setPath env allowed scope "shellcheck" fun p s => { s with shellcheck := some p })
  |> apply l.pyflakes
      (setPath env allowed scope "pyflakes" fun p s => { s with pyflakes := some p })
  |> apply l.extraArgs (setExtraArgs trusted scope)
  |> apply l.ruleSeverity (fun kvs r => kvs.foldl (setSeverity scope) r)

end Resolution

/-- The layers in the order they are laid, those of one scope as given. -/
def layingOrder (layers : List (Scope × Layer)) : List (Scope × Layer) :=
  layers.mergeSort fun a b => a.1.rank ≤ b.1.rank

def resolve (env : Environment) (trusted : Bool) (layers : List (Scope × Layer)) : Resolution :=
  (layingOrder layers).foldl (Resolution.lay env trusted) { settings := { trusted } }

/-- The layers a host knows. -/
structure Sources where
  /-- The user's own file. -/
  userFile : Option Layer := none
  /-- What the editor sent. -/
  client : Option Layer := none
  /-- The file of the workspace. -/
  workspace : Option Layer := none
  deriving DecidableEq, Inhabited

namespace Sources

def layers (s : Sources) : List (Scope × Layer) :=
  s.userFile.toList.map (Scope.user, ·) ++ s.client.toList.map (Scope.user, ·) ++
    s.workspace.toList.map (Scope.workspace, ·)

def resolve (s : Sources) (env : Environment) (trusted : Bool) : Resolution :=
  WorkflowLint.resolve env trusted s.layers

end Sources

end WorkflowLint

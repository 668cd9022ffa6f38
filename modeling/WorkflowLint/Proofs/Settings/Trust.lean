import WorkflowLint.Proofs.Settings.Laying
import WorkflowLint.Tool.Request
/-!
# What an untrusted workspace cannot choose

In an untrusted workspace its own layer chooses neither the tool nor the helpers, and no layer adds
arguments. So two lists of layers that differ only in what is not theirs to choose come to the same
settings, and requests under these settings run the same tool with the same arguments
(`resolve_untrusted`). The gate stands twice: the resolution leaves out further arguments, and a
request that is not trusted passes none on, whatever its settings hold.
-/

namespace WorkflowLint

/-- A layer without what it may not choose when the workspace is not trusted. -/
def Layer.harmless (sl : Scope × Layer) : Scope × Layer :=
  (sl.1, match sl.1 with
    | .workspace =>
      { sl.2 with executable := none, shellcheck := none, pyflakes := none, extraArgs := none }
    | _ => { sl.2 with extraArgs := none })

def Settings.withExtraArgs (s : Settings) (args : List String) : Settings :=
  { s with extraArgs := args }

def Request.withSettings (r : Request) (s : Settings) : Request := { r with settings := s }

variable {env : Environment}

/-! ## Resolution -/

theorem under_harmless (s : Settings) (sl : Scope × Layer) :
    s.under env false (Layer.harmless sl) = s.under env false sl := by
  obtain ⟨scope, l⟩ := sl
  cases scope <;> rfl

theorem foldl_under_harmless (layers : List (Scope × Layer)) (s : Settings) :
    (layers.map Layer.harmless).foldl (Settings.under env false) s =
      layers.foldl (Settings.under env false) s := by
  rw [List.foldl_map]
  simp only [under_harmless]

theorem layingOrder_harmless (layers : List (Scope × Layer)) :
    (layingOrder layers).map Layer.harmless = layingOrder (layers.map Layer.harmless) :=
  List.map_mergeSort fun _ _ _ _ => rfl

theorem settings_resolve_harmless (layers : List (Scope × Layer)) :
    (resolve env false (layers.map Layer.harmless)).settings =
      (resolve env false layers).settings := by
  rw [settings_resolve, settings_resolve, ← layingOrder_harmless, foldl_under_harmless]

theorem extraArgs_resolve (layers : List (Scope × Layer)) :
    (resolve env false layers).settings.extraArgs = [] := by
  rw [settings_resolve]
  suffices hfold : ∀ s : Settings, ((layingOrder layers).foldl (Settings.under env false) s).extraArgs
      = s.extraArgs from hfold _
  induction layingOrder layers with
  | nil => exact fun _ => rfl
  | cons sl ordered ih => exact fun s => ih (s.under env false sl)

/-! ## Requests -/

theorem arguments_of_untrusted {r : Request} (hr : r.trusted = false) (args : List String) :
    (r.withSettings (r.settings.withExtraArgs args)).arguments = r.arguments := by
  have hsame : (r.withSettings (r.settings.withExtraArgs args)).trusted = false := hr
  rw [Request.arguments, Request.arguments, hsame, hr]
  rfl

theorem arguments_of_trusted {r : Request} (hr : r.trusted = true) (args : List String) :
    (r.withSettings (r.settings.withExtraArgs args)).arguments =
      r.ownArguments ++ args ++ ["-"] := by
  have hsame : (r.withSettings (r.settings.withExtraArgs args)).trusted = true := hr
  rw [Request.arguments, hsame]
  rfl

/-- **An untrusted workspace chooses no tool, no helper and no arguments.** Layers that differ only
in what may not be chosen come to the same settings, so that requests under them run the same tool
with the same arguments; and further arguments are passed on by trusted requests only, right before
the dash. -/
theorem resolve_untrusted {layers layers' : List (Scope × Layer)}
    (hsame : layers.map Layer.harmless = layers'.map Layer.harmless) (env : Environment) :
    let s := (resolve env false layers).settings
    let s' := (resolve env false layers').settings
    s = s' ∧ s.extraArgs = [] ∧
      (∀ r : Request,
        (r.withSettings s).settings.executable = (r.withSettings s').settings.executable ∧
          (r.withSettings s).arguments = (r.withSettings s').arguments) ∧
      ∀ (r : Request) (args : List String),
        (r.trusted = false →
          (r.withSettings (r.settings.withExtraArgs args)).arguments = r.arguments) ∧
        (r.trusted = true →
          (r.withSettings (r.settings.withExtraArgs args)).arguments =
            r.ownArguments ++ args ++ ["-"]) := by
  intro s s'
  have hs : s = s' := by
    calc s = (resolve env false (layers.map Layer.harmless)).settings :=
          (settings_resolve_harmless layers).symm
      _ = (resolve env false (layers'.map Layer.harmless)).settings := by rw [hsame]
      _ = s' := settings_resolve_harmless layers'
  refine ⟨hs, extraArgs_resolve layers, fun r => ?_, fun r args => ?_⟩
  · rw [hs]
    exact ⟨rfl, rfl⟩
  · exact ⟨fun hr => arguments_of_untrusted hr args, fun hr => arguments_of_trusted hr args⟩

/-- Two workspaces with tools of their own, under users of whom one asks for an argument. -/
theorem resolve_untrusted_of_workspaces :
    let layers := [(Scope.user, { extraArgs := some ["-verbose"] }),
      (Scope.workspace, { executable := some "./evil", shellcheck := some "./sc" })]
    let layers' := [(Scope.user, {}),
      (Scope.workspace, { pyflakes := some "./pf", extraArgs := some ["-x"] })]
    (resolve [] false layers).settings = (resolve [] false layers').settings ∧
      (resolve [] false layers).settings.extraArgs = [] ∧
      (resolve [] false layers).settings.executable = "actionlint" := by
  intro layers layers'
  have hsame : layers.map Layer.harmless = layers'.map Layer.harmless := rfl
  have hresolve := resolve_untrusted hsame []
  have hordered : layingOrder layers = layers := List.mergeSort_of_pairwise (by decide)
  refine ⟨hresolve.1, hresolve.2.1, ?_⟩
  rw [settings_resolve, hordered]
  rfl

end WorkflowLint

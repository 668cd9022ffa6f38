import WorkflowLint.Settings.Basic
import WorkflowLint.Json.Shape
/-!
# Layers of settings

A layer sets some of the settings and leaves the rest to the layers below it. It is read from a
JSON value an editor sends, where some keys have a second spelling, or from a configuration file.
-/

namespace WorkflowLint

/-- One layer: what is none is left open. -/
structure Layer where
  enabled : Option Bool := none
  executable : Option String := none
  trigger : Option Trigger := none
  debounce : Option Nat := none
  ignore : Option (List String) := none
  shellcheck : Option String := none
  pyflakes : Option String := none
  extraArgs : Option (List String) := none
  /-- Severities by kind of finding as they are written, in the order of kinds. -/
  ruleSeverity : Option (List (String × String)) := none
  logLevel : Option LogLevel := none
  deriving DecidableEq, Inhabited

namespace Layer

open Json (Reader)

def triggerNames : List (String × Trigger) :=
  [("onsave", .onSave), ("save", .onSave), ("ontype", .onType), ("type", .onType)]

def levelNames : List (String × LogLevel) :=
  [("error", .error), ("warn", .warn), ("info", .info), ("debug", .debug), ("trace", .trace)]

/-- The fields of a layer; `bare` tells which value may stand under a name that is a key. -/
def record (bare : Json → Bool) : Json.Record Layer where
  title := "SettingsLayer"
  fields := [
    { name := "enabled"
      set := fun v l => return { l with enabled := ← Reader.optional Reader.bool v } },
    { name := "executable"
      set := fun v l => return { l with executable := ← Reader.optional Reader.string v } },
    { name := "trigger"
      set := fun v l =>
        return { l with trigger := ← Reader.optional (Reader.choice bare triggerNames) v } },
    { name := "debounce_ms", other := some "debounceMs"
      set := fun v l => return { l with debounce := ← Reader.optional Reader.nat64 v } },
    { name := "ignore"
      set := fun v l =>
        return { l with ignore := ← Reader.optional (Reader.list Reader.string) v } },
    { name := "shellcheck"
      set := fun v l => return { l with shellcheck := ← Reader.optional Reader.string v } },
    { name := "pyflakes"
      set := fun v l => return { l with pyflakes := ← Reader.optional Reader.string v } },
    { name := "extra_args", other := some "extraArgs"
      set := fun v l =>
        return { l with extraArgs := ← Reader.optional (Reader.list Reader.string) v } },
    { name := "rule_severity", other := some "ruleSeverity"
      set := fun v l =>
        return { l with ruleSeverity := ← Reader.optional (Reader.mapping Reader.string) v } },
    { name := "log_level", other := some "logLevel"
      set := fun v l =>
        return { l with logLevel := ← Reader.optional (Reader.choice bare levelNames) v } }]

/-- Read a layer an editor sends: the value itself or what it holds under the server's name. Null
is the empty layer. -/
def ofClient (v : Json) : Except Json.Mismatch Layer :=
  let inner := (v.get? "flowlint").getD v
  if inner.isNull then .ok {} else (record Json.isNull).read {} inner

/-- Read a layer from the content of a configuration file. -/
def ofDocument (v : Json) : Except Json.Mismatch Layer :=
  let bare : Json → Bool
    | .array [] => true
    | .fields [] => true
    | _ => false
  (record bare).read {} v

end Layer

end WorkflowLint

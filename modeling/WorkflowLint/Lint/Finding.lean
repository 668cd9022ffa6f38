import WorkflowLint.Json.Shape
/-!
# Findings of the tool

A finding as the tool reports it: lines and columns count from one, the end column is included,
and zero stands for what is not known. Every field may be missing.
-/

namespace WorkflowLint

structure Finding where
  message : String := ""
  filepath : String := ""
  line : Int := 0
  column : Int := 0
  endColumn : Int := 0
  kind : String := ""
  snippet : String := ""
  deriving DecidableEq, Inhabited

namespace Finding

open Json (Field Reader)

/-- The fields of a finding in the tool's output. -/
def record : Json.Record Finding where
  title := "RawFinding"
  fields := [
    { name := "message", set := fun v f => return { f with message := ← Reader.string v } },
    { name := "filepath", set := fun v f => return { f with filepath := ← Reader.string v } },
    { name := "line", set := fun v f => return { f with line := ← Reader.int64 v } },
    { name := "column", set := fun v f => return { f with column := ← Reader.int64 v } },
    { name := "end_column", set := fun v f => return { f with endColumn := ← Reader.int64 v } },
    { name := "kind", set := fun v f => return { f with kind := ← Reader.string v } },
    { name := "snippet", set := fun v f => return { f with snippet := ← Reader.string v } }]

def read : Reader Finding := record.read {}

/-- A finding in the form the tool writes it. -/
def toJson (f : Finding) : Json :=
  Json.object [
    ("message", .string f.message),
    ("filepath", .string f.filepath),
    ("line", Json.int f.line),
    ("column", Json.int f.column),
    ("end_column", Json.int f.endColumn),
    ("kind", .string f.kind),
    ("snippet", .string f.snippet)]

end Finding

end WorkflowLint

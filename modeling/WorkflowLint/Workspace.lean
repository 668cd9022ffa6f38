import WorkflowLint.Path
/-!
# Workspaces

A workspace has roots. A file is checked from the innermost root that contains it, under its path
from there; a file outside all roots from its own directory, under its own name.
-/

namespace WorkflowLint

/-- Where to run the tool, and what to call the document. -/
structure Location where
  workingDir : Path
  relativePath : String
  deriving DecidableEq, Inhabited

/-- The roots of a workspace. -/
abbrev Workspace := List Path

namespace Workspace

/-- Of two roots the one with more components, the later one when they have as many. -/
def inner : Option Path → Path → Option Path
  | none, root => some root
  | some best, root =>
    if best.components.length ≤ root.components.length then some root else some best

/-- The innermost root that contains a path. -/
def rootFor? (roots : Workspace) (p : Path) : Option Path :=
  (roots.filter p.startsWith).foldl inner none

/-- Where a path is checked. -/
def locate (roots : Workspace) (p : Path) : Location :=
  match rootFor? roots p with
  | some root => { workingDir := root, relativePath := Path.slashed (p.below root) }
  | none =>
    { workingDir := (p.parent?).getD (Path.ofString ".")
      relativePath := (p.fileName?.map Text.Utf8.toStringLossy).getD "" }

end Workspace

end WorkflowLint

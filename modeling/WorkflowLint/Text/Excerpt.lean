import WorkflowLint.Text.Utf8
/-!
# Excerpts

Output quoted in a message is cut to a number of characters; what was cut is told by the size of
the whole in bytes.
-/

namespace WorkflowLint.Text

/-- At most `limit` characters of `s`, with a note of its size when there are more. -/
def excerpt (limit : Nat) (s : String) : String :=
  let cs := s.toList
  if cs.length ≤ limit then s
  else String.ofList (cs.take limit) ++ s!"... ({s.utf8ByteSize} bytes total)"

end WorkflowLint.Text

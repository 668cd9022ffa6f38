/-!
# Lines of a text

A line ends at a line feed, which takes a carriage return before it along. What stands after the
last line feed is a line only when it is not empty.
-/

namespace WorkflowLint.Text

/-- A line as it stands before its line feed, given back to front: one carriage return is part of
the line's end. -/
def closeLine : List Char → List Char
  | '\r' :: r => r.reverse
  | r => r.reverse

/-- One character read: the finished lines, last first, and the open line, back to front. -/
def lineStep : List (List Char) × List Char → Char → List (List Char) × List Char
  | (done, line), c => if c = '\n' then (closeLine line :: done, []) else (done, c :: line)

def lines (cs : List Char) : List (List Char) :=
  match cs.foldl lineStep ([], []) with
  | (done, []) => done.reverse
  | (done, line) => (line.reverse :: done).reverse

end WorkflowLint.Text

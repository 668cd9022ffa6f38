import WorkflowLint.Workspace
import WorkflowLint.Proofs.FileUrls
import WorkflowLint.Proofs.Paths
/-!
# Where a file is checked, and under which name

A file is checked from the innermost root above it, else from its parent
(`Workspace.located_locate`). The name it is checked under is made of the names below that directory,
and a double dot has no name. So the name leads from the directory to the file exactly if no double
dot stands below the directory (`Workspace.names_itself_iff`); a path that goes up again below a root
is checked under the name of another file (`Workspace.misnamed_below_root`).
-/

namespace WorkflowLint

/-- The components that the name of a document stands for. -/
def Location.parts (l : Location) : List Component := (Path.ofString l.relativePath).components

namespace Workspace

variable {roots : Workspace} {p root : Path}

/-! ## The innermost root -/

/-- The directory a path is checked from. -/
structure Chooses (roots : Workspace) (p dir : Path) : Prop where
  /-- The innermost root above the path, if there is one. -/
  innermost : (∃ root ∈ roots, root.components <+: p.components) →
    dir ∈ roots ∧ dir.components <+: p.components ∧ ∀ root ∈ roots,
      root.components <+: p.components → root.components.length ≤ dir.components.length
  /-- Else the parent of the path. -/
  parent : (∀ root ∈ roots, ¬ root.components <+: p.components) →
    p.parent? = some dir ∧ dir.components = p.components.dropLast

theorem startsWith_iff : p.startsWith root = true ↔ root.components <+: p.components :=
  List.isPrefixOf_iff_prefix

theorem foldl_inner (others : List Path) (best : Path) :
    ∃ root ∈ best :: others, others.foldl inner (some best) = some root ∧
      ∀ other ∈ best :: others, other.components.length ≤ root.components.length := by
  induction others generalizing best with
  | nil => exact ⟨best, List.mem_singleton_self best, rfl, by simp⟩
  | cons next others ih =>
    rw [List.foldl_cons, inner]
    split
    · rename_i hle
      obtain ⟨root, hroot, hfold, hmost⟩ := ih next
      refine ⟨root, List.mem_cons_of_mem _ hroot, hfold, List.forall_mem_cons.mpr ⟨?_, hmost⟩⟩
      exact Nat.le_trans hle (hmost next List.mem_cons_self)
    · rename_i hlt
      obtain ⟨root, hroot, hfold, hmost⟩ := ih best
      obtain ⟨hbest, hothers⟩ := List.forall_mem_cons.mp hmost
      refine ⟨root, ?_, hfold, ?_⟩
      · rcases List.mem_cons.mp hroot with rfl | hroot
        · exact List.mem_cons_self
        · exact List.mem_cons_of_mem _ (List.mem_cons_of_mem _ hroot)
      · refine List.forall_mem_cons.mpr ⟨hbest, List.forall_mem_cons.mpr ⟨?_, hothers⟩⟩
        exact Nat.le_trans (Nat.le_of_not_le hlt) hbest

/-- There is a root above the path, and the innermost is found; or there is none. -/
theorem rootFor?_cases (roots : Workspace) (p : Path) :
    (∃ root ∈ roots, rootFor? roots p = some root ∧ root.components <+: p.components ∧
      ∀ other ∈ roots, other.components <+: p.components →
        other.components.length ≤ root.components.length) ∨
    rootFor? roots p = none ∧ ∀ root ∈ roots, ¬ root.components <+: p.components := by
  have hmem : ∀ root, root ∈ roots.filter p.startsWith ↔
      root ∈ roots ∧ root.components <+: p.components := fun root => by
    rw [List.mem_filter, startsWith_iff]
  rw [rootFor?]
  cases hfilter : roots.filter p.startsWith with
  | nil =>
    refine .inr ⟨rfl, fun root hroot hprefix => ?_⟩
    have habove := (hmem root).mpr ⟨hroot, hprefix⟩
    rw [hfilter] at habove
    cases habove
  | cons best others =>
    obtain ⟨root, hroot, hfold, hmost⟩ := foldl_inner others best
    rw [← hfilter] at hroot hmost
    obtain ⟨hroots, hprefix⟩ := (hmem root).mp hroot
    exact .inl ⟨root, hroots, hfold, hprefix,
      fun other hother habove => hmost other ((hmem other).mpr ⟨hother, habove⟩)⟩

/-- A location from which a path is seen under the names below. -/
structure Located (roots : Workspace) (p : Path) (l : Location) : Prop where
  chooses : roots.Chooses p l.workingDir
  isAbsolute : l.workingDir.isAbsolute = true
  above : l.workingDir.components <+: p.components
  name : l.relativePath = Path.slashed (p.below l.workingDir)

theorem located_locate (hroots : ∀ root ∈ roots, root.isAbsolute = true)
    (hp : p.isAbsolute = true) {name : List UInt8} (hname : p.fileName? = some name) :
    Located roots p (roots.locate p) := by
  rw [locate]
  rcases rootFor?_cases roots p with ⟨root, hroot, hfound, habove, hmost⟩ | ⟨hfound, hnone⟩
  · rw [hfound]
    refine ⟨⟨fun _ => ⟨hroot, habove, hmost⟩, fun hnone => ?_⟩, hroots root hroot, habove, rfl⟩
    exact absurd habove (hnone root hroot)
  · rw [hfound]
    obtain ⟨dir, hparent, habsolute, hcomponents⟩ := Path.exists_parent? hp hname
    rw [hparent, hname]
    refine ⟨⟨fun ⟨root, hroot, habove⟩ => absurd habove (hnone root hroot), fun _ => ⟨hparent, ?_⟩⟩,
      habsolute, ?_, ?_⟩
    · rw [hcomponents, List.dropLast_concat]
      rfl
    · exact ⟨[.normal name], hcomponents.symm⟩
    · have hbelow : p.below dir = [.normal name] := by
        rw [Path.below, hcomponents, List.drop_left]
      show Text.Utf8.toStringLossy name = Path.slashed (p.below dir)
      rw [hbelow]
      rfl

/-! ## The name below -/

theorem mem_below {dir : Path} (hdir : dir.isAbsolute = true) (hp : p.isAbsolute = true)
    {c : Component} (hc : c ∈ p.below dir) : c = .parent ∨ c.name? ≠ none := by
  obtain ⟨bs, rfl⟩ := Path.exists_of_isAbsolute hp
  obtain ⟨cs, hcs⟩ := Path.components_of_isAbsolute hdir
  rw [Path.below, Path.components_slash, hcs, List.length_cons, List.drop_succ_cons] at hc
  obtain ⟨s, -, hs⟩ := List.mem_filterMap.mp (List.mem_of_mem_drop hc)
  rw [Path.innerComponent?] at hs
  split at hs
  · cases hs
  · split at hs
    · exact .inl (Option.some.inj hs).symm
    · rw [← Option.some.inj hs]
      exact .inr (Option.some_ne_none _)

theorem map_names_eq {cs : List Component} (hcs : ∀ c ∈ cs, c = .parent ∨ c.name? ≠ none) :
    (cs.filterMap Component.name?).map .normal = cs.filter (· ≠ .parent) := by
  rw [List.map_filterMap, ← List.filterMap_eq_filter]
  refine List.filterMap_congr fun c hc => ?_
  cases c with
  | normal n => rfl
  | parent => rfl
  | root | current => exact (hcs _ hc).elim nofun fun h => absurd rfl h

/-- **A name leads to its file exactly if no double dot stands below the directory.** The directory
is the innermost root above the path, else its parent, and the parts of the name are the components
below without the double dots. -/
theorem names_itself_iff (hroots : ∀ root ∈ roots, root.isAbsolute = true) (text : String)
    (habsolute : (Path.ofString text).isAbsolute = true)
    (hname : (Path.ofString text).fileName? ≠ none) :
    let p := Path.ofString text
    let l := roots.locate p
    roots.Chooses p l.workingDir ∧ l.workingDir.components <+: p.components ∧
    l.parts = (p.below l.workingDir).filter (· ≠ .parent) ∧
    (l.workingDir.components ++ l.parts = p.components ↔ .parent ∉ p.below l.workingDir) ∧
    ((l.workingDir.join (.ofString l.relativePath)).components = p.components ↔
      .parent ∉ p.below l.workingDir) := by
  intro p l
  obtain ⟨name, hname⟩ := Option.ne_none_iff_exists'.mp hname
  have hl : Located roots p l := located_locate hroots habsolute hname
  have hbelow : l.workingDir.components ++ p.below l.workingDir = p.components :=
    List.prefix_iff_eq_append.mp hl.above
  have hnames : ∀ n, .normal n ∈ p.below l.workingDir → Path.IsName n := fun n hn =>
    Path.isName_of_mem (List.mem_of_mem_drop hn)
  have hparts : l.parts = (p.below l.workingDir).filter (· ≠ .parent) := by
    rw [Location.parts, hl.name, Path.components_slashed hnames]
    exact map_names_eq fun c hc => mem_below hl.isAbsolute habsolute hc
  have hiff : l.workingDir.components ++ l.parts = p.components ↔
      .parent ∉ p.below l.workingDir := by
    rw [hparts, ← hbelow, List.append_right_inj, List.filter_eq_self]
    simp only [decide_eq_true_eq]
    exact ⟨fun hall hparent => hall _ hparent rfl, fun hnone c hc heq => hnone (heq ▸ hc)⟩
  have hjoin : (l.workingDir.join (.ofString l.relativePath)).components =
      l.workingDir.components ++ l.parts := by
    have hbytes : l.workingDir.bytes ≠ [] := by
      obtain ⟨bs, hbs⟩ := Path.exists_of_isAbsolute hl.isAbsolute
      rw [hbs]
      exact List.cons_ne_nil _ _
    rw [Location.parts, hl.name]
    exact Path.components_join_slashed hnames hbytes
  exact ⟨hl.chooses, hl.above, hparts, hiff, by rw [hjoin, hiff]⟩

/-- A double dot above the innermost of two roots does no harm. -/
theorem names_itself_above_root :
    let roots : Workspace := [.ofString "/w", .ofString "/w/../repo"]
    let p := Path.ofString "/w/../repo/.github/workflows/ci.yml"
    (roots.locate p).workingDir = .ofString "/w/../repo" ∧
      ((roots.locate p).workingDir.join (.ofString (roots.locate p).relativePath)).components =
        p.components := by
  intro roots p
  have hroots : ∀ root ∈ roots, root.isAbsolute = true := by decide +kernel
  have hiff := names_itself_iff hroots "/w/../repo/.github/workflows/ci.yml" (by decide +kernel)
    (by decide +kernel)
  exact ⟨by decide +kernel, hiff.2.2.2.2.mpr (by decide +kernel)⟩

/-- A file given as a path that goes up from the root is checked under the name of another: its path
is made absolute without being resolved, so it begins with the root, and the double dot is lost. -/
theorem misnamed_below_root :
    let root := Path.ofString "/repo/sub"
    let p := Path.absolute root (.ofString "../.github/workflows/ci.yml")
    let l := Workspace.locate [root] p
    p = .ofString "/repo/sub/../.github/workflows/ci.yml" ∧ root.isAbsolute = true ∧
      p.isAbsolute = true ∧ p.fileName? ≠ none ∧
      l = { workingDir := root, relativePath := ".github/workflows/ci.yml" } ∧
      l.workingDir.components ++ l.parts ≠ p.components ∧
      (l.workingDir.join (.ofString l.relativePath)).components ≠ p.components := by
  decide +kernel

end Workspace

end WorkflowLint

import WorkflowLint.Proofs.Places
import WorkflowLint.Tool.Run
/-!
# What a bare name runs

A bare name is looked for along the search path first. When no directory there has a runnable file
of that name, a file of the working directory takes its place, whether or not it is runnable. By
`Machine.workspace_chooses_iff` the files of the working directory have a say in which program runs
exactly then: what is found along a search path outside the working directory depends on nothing
inside it.
-/

namespace WorkflowLint

/-- Whether a path leads from a directory into it. -/
def Path.IsInside (p dir : Path) : Prop := dir.place <+: p.place ∧ p.place ≠ dir.place

/-- Two file trees that differ only in what is in a directory. -/
def FileTree.AgreeOutside (dir : Path) (s t : FileTree) : Prop :=
  ∀ place, ¬ (dir.place <+: place ∧ place ≠ dir.place) → s.at? place = t.at? place

namespace Machine

/-- Whether no directory of the search path is a given one or in it. -/
def SearchesOutside (m : Machine) (dir : Path) : Prop :=
  ∀ p ∈ m.searchPath, p.isAbsolute = true ∧ ¬ dir.place <+: p.place

/-- Whether a directory of the search path has a runnable file of a name. -/
def HasTool (m : Machine) (executable : String) : Prop :=
  ∃ p ∈ m.searchPath, isRunnable m.files (p.join (.ofString executable)) = true

/-- The file of a name in the working directory, if there is one. -/
def localTool? (m : Machine) (dir : Path) (executable : String) : Option FileEntry :=
  m.files.file? (dir.join (.ofString executable))

variable {m : Machine} {t t' : FileTree} {dir p : Path} {executable : String}

/-! ## Files of a name -/

theorem isRunnable_eq (t : FileTree) (p : Path) :
    isRunnable t p = (t.file? p).any fun e => match e with
      | .file _ x => x
      | .program _ => true
      | .directory => false := by
  rw [isRunnable, FileTree.file?]
  cases t.find p with
  | error f => rfl
  | ok e => cases e <;> rfl

theorem exists_file_of_isRunnable (hp : isRunnable t p = true) : ∃ e, t.file? p = some e := by
  rw [isRunnable_eq] at hp
  cases hf : t.file? p with
  | none =>
    rw [hf] at hp
    cases hp
  | some e => exact ⟨e, rfl⟩

theorem place_of_file {e : FileEntry} (hbare : Path.slash ∉ (Path.ofString executable).bytes)
    (hfile : t.file? (p.join (.ofString executable)) = some e) :
    (p.join (.ofString executable)).place = p.place ++ [(Path.ofString executable).bytes] :=
  FileTree.place_join hbare (FileTree.innerComponent?_of_file hbare hfile)

theorem not_isInside_of_file {e : FileEntry}
    (hbare : Path.slash ∉ (Path.ofString executable).bytes) (hout : ¬ dir.place <+: p.place)
    (hfile : t.file? (p.join (.ofString executable)) = some e) :
    ¬ (p.join (.ofString executable)).IsInside dir := by
  rintro ⟨hbelow, hne⟩
  rw [place_of_file hbare hfile] at hbelow hne
  rcases List.prefix_concat_iff.mp hbelow with heq | hbelow
  · exact hne heq.symm
  · exact hout hbelow

theorem isInside_of_file {e : FileEntry} (hbare : Path.slash ∉ (Path.ofString executable).bytes)
    (hfile : t.file? (dir.join (.ofString executable)) = some e) :
    (dir.join (.ofString executable)).IsInside dir := by
  rw [Path.IsInside, place_of_file hbare hfile]
  exact ⟨List.prefix_append .., by simp⟩

/-- What a bare name is, seen from a directory outside another, does not depend on what is in that. -/
theorem file?_eq_of_agreeOutside (hbare : Path.slash ∉ (Path.ofString executable).bytes)
    (hout : ¬ dir.place <+: p.place) (hagree : FileTree.AgreeOutside dir t t')
    (hdirectory : t.isDirectory p = t'.isDirectory p) :
    t.file? (p.join (.ofString executable)) = t'.file? (p.join (.ofString executable)) := by
  have hsame : t.at? (p.place ++ [(Path.ofString executable).bytes]) =
      t'.at? (p.place ++ [(Path.ofString executable).bytes]) := by
    refine hagree _ fun ⟨hbelow, hne⟩ => ?_
    rcases List.prefix_concat_iff.mp hbelow with heq | hbelow
    · exact hne heq.symm
    · exact hout hbelow
  by_cases hname : Path.innerComponent? (Path.ofString executable).bytes =
      some (.normal (Path.ofString executable).bytes)
  · refine Option.ext fun e => (FileTree.file?_join_iff hbare hname).trans
      (Iff.trans ?_ (FileTree.file?_join_iff hbare hname).symm)
    rw [hdirectory, hsame]
  · -- no file tree has a file of such a name
    have hnone : ∀ s : FileTree, s.file? (p.join (.ofString executable)) = none := by
      intro s
      cases hf : s.file? (p.join (.ofString executable)) with
      | none => rfl
      | some e => exact absurd (FileTree.innerComponent?_of_file hbare hf) hname
    rw [hnone, hnone]

/-! ## The program of a run -/

theorem isBare_of_not_mem {n : Path} (hn : Path.slash ∉ n.bytes) : isBare n = true := by
  have hcomponents : n.components = Path.front false n.bytes := Path.components_name hn
  rw [isBare, hcomponents, Path.front, decide_eq_true_iff, if_neg Bool.false_ne_true]
  split
  · exact Nat.le_refl 1
  · cases Path.innerComponent? n.bytes <;> simp

theorem findTool?_eq (hbare : Path.slash ∉ (Path.ofString executable).bytes) (m : Machine)
    (dir : Path) :
    m.findTool? dir executable =
      ((m.searchPath.map (·.join (.ofString executable))).find? (isRunnable m.files)).or
        (if (m.localTool? dir executable).isSome then some (dir.join (.ofString executable))
          else none) := by
  rw [findTool?, lookUp?, if_pos (isBare_of_not_mem hbare), Option.filter_some]
  rfl

theorem invocation_run (m : Machine) (timeout : Nat) (r : Request) :
    (m.run timeout none r).1.invocation.map (·.program) =
      (m.findTool? r.workingDir r.settings.executable).map Path.display := by
  rw [run, if_neg (by simp)]
  dsimp only
  cases m.findTool? r.workingDir r.settings.executable with
  | none => rfl
  | some program =>
    dsimp only
    cases startFault? m.files r.workingDir program r.arguments with
    | some f => rfl
    | none =>
      dsimp only [Option.any_none]
      rw [resultOf]
      split <;> rfl

theorem run_of_none {timeout : Nat} {cancelAfter : Option Nat} {r : Request}
    (hlive : cancelAfter ≠ some 0)
    (hnone : m.findTool? r.workingDir r.settings.executable = none) :
    m.run timeout cancelAfter r =
      ({ outcome := .failure (.notFound r.settings.executable) }, m.files) := by
  rw [run, if_neg hlive]
  dsimp only
  rw [hnone]

/-! ## Who chooses the program -/

theorem find?_eq_none_iff : (m.searchPath.map (·.join (.ofString executable))).find?
    (isRunnable m.files) = none ↔ ¬ m.HasTool executable := by
  rw [List.find?_eq_none, HasTool]
  simp

theorem findTool?_of_hasTool (hbare : Path.slash ∉ (Path.ofString executable).bytes)
    (hout : m.SearchesOutside dir) (htool : m.HasTool executable) :
    ∃ p ∈ m.searchPath, m.findTool? dir executable = some (p.join (.ofString executable)) ∧
      ¬ (p.join (.ofString executable)).IsInside dir := by
  rw [findTool?_eq hbare]
  cases hfind : (m.searchPath.map (·.join (.ofString executable))).find? (isRunnable m.files) with
  | none => exact absurd htool (find?_eq_none_iff.mp hfind)
  | some q =>
    obtain ⟨p, hp, rfl⟩ := List.mem_map.mp (List.mem_of_find?_eq_some hfind)
    obtain ⟨e, he⟩ := exists_file_of_isRunnable (List.find?_some hfind)
    exact ⟨p, hp, rfl, not_isInside_of_file hbare (hout p hp).2 he⟩

theorem findTool?_of_not_hasTool (hbare : Path.slash ∉ (Path.ofString executable).bytes)
    (htool : ¬ m.HasTool executable) (dir : Path) :
    m.findTool? dir executable =
      if (m.localTool? dir executable).isSome then some (dir.join (.ofString executable))
      else none := by
  rw [findTool?_eq hbare, find?_eq_none_iff.mpr htool, Option.none_or]

/-- The search path finds the same in file trees that differ only inside a directory outside. -/
theorem find?_eq_of_agreeOutside (hbare : Path.slash ∉ (Path.ofString executable).bytes)
    (hout : m.SearchesOutside dir) (hagree : FileTree.AgreeOutside dir m.files t)
    (hdirectories : ∀ p ∈ m.searchPath, m.files.isDirectory p = t.isDirectory p) :
    (m.searchPath.map (·.join (.ofString executable))).find? (isRunnable t) =
      (m.searchPath.map (·.join (.ofString executable))).find? (isRunnable m.files) := by
  have hsame : ∀ p ∈ m.searchPath, isRunnable t (p.join (.ofString executable)) =
      isRunnable m.files (p.join (.ofString executable)) := by
    intro p hp
    rw [isRunnable_eq, isRunnable_eq,
      file?_eq_of_agreeOutside hbare (hout p hp).2 hagree (hdirectories p hp)]
  -- the induction is on the directories alone
  generalize m.searchPath = ps at hsame
  induction ps with
  | nil => rfl
  | cons p ps ih =>
    rw [List.forall_mem_cons] at hsame
    rw [List.map_cons, List.find?_cons, List.find?_cons, hsame.1, ih hsame.2]

/-- **When the working directory has a say in which program runs.** Let the tool have a bare name,
and let the search path stay outside the working directory. Then the program of a run is the one
found; it is outside the working directory, and missing unless the search path has it, iff the search
path has it or the working directory has no file of that name; and it stays the same when the
contents of the working directory change iff the search path has it, or both contents or neither have
such a file. -/
theorem workspace_chooses_iff {r : Request} (timeout : Nat)
    (hbare : Path.slash ∉ (Path.ofString r.settings.executable).bytes)
    (hout : m.SearchesOutside r.workingDir) :
    (m.run timeout none r).1.invocation.map (·.program) =
        (m.findTool? r.workingDir r.settings.executable).map Path.display ∧
      (((∀ program, m.findTool? r.workingDir r.settings.executable = some program →
            ¬ program.IsInside r.workingDir) ∧
          (¬ m.HasTool r.settings.executable → m.run timeout none r =
            ({ outcome := .failure (.notFound r.settings.executable) }, m.files))) ↔
        m.HasTool r.settings.executable ∨ m.localTool? r.workingDir r.settings.executable = none) ∧
      ∀ files, FileTree.AgreeOutside r.workingDir m.files files →
        (∀ p ∈ m.searchPath, m.files.isDirectory p = files.isDirectory p) →
        (({ m with files } : Machine).findTool? r.workingDir r.settings.executable =
            m.findTool? r.workingDir r.settings.executable ↔
          m.HasTool r.settings.executable ∨
            (({ m with files } : Machine).localTool? r.workingDir r.settings.executable).isSome =
              (m.localTool? r.workingDir r.settings.executable).isSome) := by
  refine ⟨invocation_run m timeout r, ?_, fun files hagree hdirectories => ?_⟩
  · by_cases htool : m.HasTool r.settings.executable
    · obtain ⟨p, -, hfind, hinside⟩ := findTool?_of_hasTool hbare hout htool
      refine iff_of_true ⟨fun program hprogram => ?_, fun hnot => absurd htool hnot⟩ (.inl htool)
      rw [hfind] at hprogram
      exact Option.some.inj hprogram ▸ hinside
    · have hfind := findTool?_of_not_hasTool hbare htool r.workingDir
      rw [or_iff_right htool]
      cases hlocal : m.localTool? r.workingDir r.settings.executable with
      | none =>
        rw [hlocal] at hfind
        refine iff_of_true ⟨fun program hprogram => ?_, fun _ => run_of_none nofun hfind⟩ rfl
        exact absurd (hfind.symm.trans hprogram) (by simp)
      | some e =>
        rw [hlocal] at hfind
        refine iff_of_false (fun hshielded => ?_) (by simp)
        exact hshielded.1 _ hfind (isInside_of_file hbare hlocal)
  · have hsame := find?_eq_of_agreeOutside hbare hout hagree hdirectories
    rw [findTool?_eq hbare, findTool?_eq hbare]
    dsimp only
    rw [hsame]
    by_cases htool : m.HasTool r.settings.executable
    · refine iff_of_true ?_ (.inl htool)
      cases hfind : (m.searchPath.map (·.join (.ofString r.settings.executable))).find?
          (isRunnable m.files) with
      | none => exact absurd htool (find?_eq_none_iff.mp hfind)
      | some q => rfl
    · rw [find?_eq_none_iff.mpr htool, or_iff_right htool, Option.none_or, Option.none_or]
      cases (({ m with files } : Machine).localTool? r.workingDir r.settings.executable).isSome <;>
        cases (m.localTool? r.workingDir r.settings.executable).isSome <;> simp

/-- A machine with a directory to search, and a working directory that has a file of the tool's
name. -/
def exposed : Machine where
  files := (({} : FileTree).addDirectory (FileTree.placeOf (.ofString "/usr/bin"))).add
    (FileTree.placeOf (.ofString "/repo/actionlint")) (.file [] true)
  searchPath := [.ofString "/usr/bin"]

/-- A request to check a file there. -/
def exposedRequest : Request where
  document := "file:///repo/.github/workflows/ci.yml"
  text := "on: push\n"
  relativePath := ".github/workflows/ci.yml"
  workingDir := .ofString "/repo"
  settings := {}

instance (p dir : Path) : Decidable (p.IsInside dir) :=
  inferInstanceAs (Decidable (dir.place <+: p.place ∧ p.place ≠ dir.place))

instance (m : Machine) (dir : Path) : Decidable (m.SearchesOutside dir) :=
  inferInstanceAs (Decidable (∀ p ∈ m.searchPath, p.isAbsolute = true ∧ ¬ dir.place <+: p.place))

instance (m : Machine) (executable : String) : Decidable (m.HasTool executable) :=
  inferInstanceAs
    (Decidable (∃ p ∈ m.searchPath, isRunnable m.files (p.join (.ofString executable)) = true))

/-- Nothing along the search path has the tool's name, and the file of the working directory runs. -/
theorem run_of_exposed :
    Path.slash ∉ (Path.ofString exposedRequest.settings.executable).bytes ∧
      exposedRequest.trusted = false ∧ exposed.SearchesOutside exposedRequest.workingDir ∧
      (∀ p ∈ exposed.searchPath, exposed.files.isDirectory p = true) ∧
      ¬ exposed.HasTool exposedRequest.settings.executable ∧
      exposed.findTool? exposedRequest.workingDir exposedRequest.settings.executable =
        some (.ofString "/repo/actionlint") ∧
      (Path.ofString "/repo/actionlint").IsInside exposedRequest.workingDir ∧
      isRunnable exposed.files (.ofString "/repo/actionlint") = true ∧
      (exposed.run defaultTimeout none exposedRequest).1.invocation.map (·.program) =
        some "/repo/actionlint" := by
  refine ⟨?_, ?_, ?_, ?_, ?_, ?_, ?_, ?_, ?_⟩
  case refine_9 =>
    rw [invocation_run]
    decide +kernel
  all_goals decide +kernel

/-- The same machine with a tool along the search path. -/
theorem workspace_chooses_iff_of_tool :
    let m : Machine := { exposed with
      files := exposed.files.add (FileTree.placeOf (.ofString "/usr/bin/actionlint"))
        (.program "actionlint") }
    ((∀ program, m.findTool? exposedRequest.workingDir exposedRequest.settings.executable =
          some program → ¬ program.IsInside exposedRequest.workingDir) ∧
        (¬ m.HasTool exposedRequest.settings.executable →
          m.run defaultTimeout none exposedRequest =
            ({ outcome := .failure (.notFound exposedRequest.settings.executable) }, m.files))) ∧
      m.HasTool exposedRequest.settings.executable := by
  intro m
  have htool : m.HasTool exposedRequest.settings.executable := by decide +kernel
  exact ⟨(workspace_chooses_iff (m := m) defaultTimeout (by decide +kernel) (by decide +kernel)).2.1.mpr
    (.inl htool), htool⟩

end Machine

end WorkflowLint

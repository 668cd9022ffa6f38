import WorkflowLint.Proofs.Coordinator.Notices
import WorkflowLint.Proofs.Tool.Answers
import WorkflowLint.Proofs.Tool.Lookup
/-!
# When the tool counts as missing

A run ends as one without the tool when the tool is not found, and also when the tool is found and a
file is missing that starting it takes: the working directory, or an interpreter that the first line
of a file names (`Machine.MissesFile`). The coordinator then holds the tool to be missing for all
documents. `Machine.missing_iff` says that there is no other way to either.
-/

namespace WorkflowLint

/-- A program whose first line leads from interpreter to interpreter to a file that is not there. -/
inductive FileTree.Lacks (t : FileTree) (dir : Path) : Nat → Path → Prop
  | missing {n : Nat} {p : Path} (h : t.find (dir.join p) = .error .notFound) : Lacks t dir (n + 1) p
  | interpreter {n : Nat} {p : Path} {content name : List UInt8}
      (h : t.find (dir.join p) = .ok (.file content true))
      (hname : Machine.interpreter? content = some name) (hnext : Lacks t dir n ⟨name⟩) :
      Lacks t dir (n + 1) p

/-- Whether a path or an argument that a program is started with holds a byte that ends texts. -/
def Request.HasNul (r : Request) (program : Path) : Prop :=
  0 ∈ r.workingDir.bytes ∨ 0 ∈ program.bytes ∨ ∃ a ∈ r.arguments, '\x00' ∈ a.toList

/-- A file is missing that starting a program for a request takes. -/
def Machine.MissesFile (m : Machine) (r : Request) (program : Path) : Prop :=
  ¬ r.HasNul program ∧ (m.files.find r.workingDir = .error .notFound ∨
    m.files.find r.workingDir = .ok .directory ∧
      m.files.Lacks r.workingDir Machine.maxInterpreters program)

/-- The run is in the slot of its document. -/
def Coordinator.Holds (c : Coordinator) (run : Run) : Prop :=
  ∃ d, c.documents.get? run.url = some d ∧ d.run.occupant = some run.ticket

namespace Machine

variable {m : Machine} {t : FileTree} {dir program : Path} {r : Request} {timeout : Nat}
  {cancelAfter : Option Nat}

/-! ## Starting -/

theorem runFault?_eq_notFound_iff {fuel : Nat} :
    runFault? t dir fuel program = some .notFound ↔ t.Lacks dir fuel program := by
  induction fuel generalizing program with
  | zero => exact iff_of_false nofun nofun
  | succ fuel ih =>
    rw [runFault?]
    constructor
    · intro h
      split at h
      · next f hfind =>
        obtain rfl := Option.some.inj h
        exact .missing hfind
      · cases h
      · cases h
      · next content executable hfind =>
        cases executable with
        | false => cases h
        | true =>
          obtain ⟨name, hname, h⟩ := Option.bind_eq_some_iff.mp h
          exact .interpreter hfind hname (ih.mp h)
    · rintro (hfind | ⟨hfind, hname, hnext⟩)
      · rw [hfind]
      · rw [hfind]
        dsimp only
        rw [hname, if_neg (by decide), Option.bind_some, ih.mpr hnext]

theorem startFault?_eq_notFound_iff :
    startFault? m.files r.workingDir program r.arguments = some (.file .notFound) ↔
      m.MissesFile r program := by
  have hnul : (r.workingDir.bytes.contains 0 = true ∨ program.bytes.contains 0 = true ∨
      (r.arguments.any fun a => a.toList.contains '\x00') = true) ↔ r.HasNul program := by
    simp [Request.HasNul]
  rw [startFault?, MissesFile, ← hnul]
  split
  · next h => exact iff_of_false nofun fun hmisses => hmisses.1 h
  · next h =>
    rw [and_iff_right h, ← runFault?_eq_notFound_iff]
    cases m.files.find r.workingDir with
    | error f => simp
    | ok e => cases e <;> simp

theorem failure_eq_notFound_iff {executable path : String} {f : StartFault} :
    f.failure executable = .notFound path ↔ f = .file .notFound ∧ executable = path := by
  cases f with
  | nul => exact iff_of_false nofun nofun
  | file f => cases f <;> simp [StartFault.failure]

/-! ## Running -/

theorem ofExit_ne_notFound (code : Int) (stdout stderr path : String) :
    Outcome.ofExit code stdout stderr ≠ .failure (.notFound path) := by
  intro h
  have hcomes := Report.comes_ofExit code stdout stderr
  rw [h] at hcomes
  cases hcomes

theorem resultOf_ne_notFound (isCancelled : Bool) (call : Invocation) (e : Execution)
    (path : String) :
    (resultOf timeout isCancelled call e).outcome ≠ .failure (.notFound path) := by
  rw [resultOf]
  cases e.ending with
  | exited code =>
    dsimp only
    exact ofExit_ne_notFound _ _ _ path
  | killed signal =>
    dsimp only
    intro h
    cases h
  | endless =>
    dsimp only
    intro h
    cases isCancelled with
    | false => cases h
    | true => cases h

theorem run_eq_notFound_iff (hlive : cancelAfter ≠ some 0)
    (h : m.findTool? r.workingDir r.settings.executable = some program) {path : String} :
    (m.run timeout cancelAfter r).1.outcome = .failure (.notFound path) ↔
      m.MissesFile r program ∧ r.settings.executable = path := by
  rw [← startFault?_eq_notFound_iff, run, if_neg hlive]
  dsimp only
  rw [h]
  dsimp only
  cases hstart : startFault? m.files r.workingDir program r.arguments with
  | some f =>
    dsimp only
    rw [Outcome.failure.injEq, failure_eq_notFound_iff, Option.some.injEq]
  | none =>
    exact iff_of_false (resultOf_ne_notFound _ _ _ path)
      fun hand => (Option.some_ne_none _).symm hand.1

theorem exists_notFound_iff (hlive : cancelAfter ≠ some 0) :
    (∃ path, (m.run timeout cancelAfter r).1.outcome = .failure (.notFound path)) ↔
      ∀ program, m.findTool? r.workingDir r.settings.executable = some program →
        m.MissesFile r program := by
  cases hfind : m.findTool? r.workingDir r.settings.executable with
  | none =>
    rw [run_of_none hlive hfind]
    exact iff_of_true ⟨_, rfl⟩ nofun
  | some program =>
    simp only [run_eq_notFound_iff hlive hfind, exists_and_left, exists_eq', and_true,
      Option.some.injEq, forall_eq']

end Machine

namespace Coordinator

variable {c : Coordinator} {run : Run} {result : RunResult} {m : Message}

theorem verdict?_eq_notFound_iff : RunEnd.verdict? (.completed result) = some .notFound ↔
    ∃ path, result.outcome = .failure (.notFound path) := by
  obtain ⟨outcome, invocation⟩ := result
  cases outcome with
  | findings fs => exact iff_of_false nofun nofun
  | warning text => exact iff_of_false nofun nofun
  | failure f => cases f <;> simp [RunEnd.verdict?, RunFailure.isNotFound]

/-- The health comes to be that of a missing tool at the end of a run that is in its slot and ended
without a tool, and at no other time. -/
theorem health_notFound_iff (hhealth : c.health ≠ .notFound) :
    (c.handle m).1.health = .notFound ↔ c.stopped = false ∧ ∃ run result path,
      m = .finished run (.completed result) ∧ c.Holds run ∧
        result.outcome = .failure (.notFound path) := by
  cases hstopped : c.stopped with
  | true =>
    rw [handle_of_stopped hstopped]
    exact iff_of_false hhealth fun h => nomatch h.1
  | false =>
    rw [and_iff_right rfl]
    by_cases hcurrent : ∃ run result, m = .finished run result ∧ c.Holds run
    · obtain ⟨run, result, rfl, d, hd, ht⟩ := hcurrent
      have hafter : (c.handle (.finished run result)).1.health = result.verdict?.getD c.health := by
        rw [handle_of_running hstopped]
        exact (finish_notices hd ht result).1
      rw [hafter]
      cases result with
      | crashed =>
        refine iff_of_false hhealth ?_
        rintro ⟨run', result', path, heq, -⟩
        cases heq
      | completed result =>
        have hverdict : (RunEnd.verdict? (.completed result)).getD c.health = .notFound ↔
            RunEnd.verdict? (.completed result) = some .notFound := by
          cases RunEnd.verdict? (.completed result) with
          | none => exact iff_of_false hhealth nofun
          | some v => exact Option.some_inj.symm
        rw [hverdict, verdict?_eq_notFound_iff]
        constructor
        · rintro ⟨path, h⟩
          exact ⟨run, result, path, rfl, ⟨d, hd, ht⟩, h⟩
        · rintro ⟨run', result', path, heq, -, h⟩
          cases heq
          exact ⟨path, h⟩
    · have hquiet : c.Quiet (c.handle m) := by
        refine quiet_handle ?_
        rintro run result rfl d hd ht
        exact hcurrent ⟨run, result, rfl, d, hd, ht⟩
      refine iff_of_false (fun hnow => hhealth (hquiet.health.symm.trans hnow)) ?_
      rintro ⟨run, result, path, rfl, hholds, -⟩
      exact hcurrent ⟨run, _, rfl, hholds⟩

end Coordinator

namespace Machine

/-- **When the tool counts as missing.** A run that is not cancelled ends without a tool when none is
found, and if one is found, exactly when a file is missing that starting it takes. The health of the
tool comes to be that of a missing one at the end of such a run, and at no other time. -/
theorem missing_iff (m : Machine) (timeout : Nat) (cancelAfter : Option Nat) (r : Request)
    (hlive : cancelAfter ≠ some 0) :
    (∀ program, m.findTool? r.workingDir r.settings.executable = some program →
      ((∀ path, (m.run timeout cancelAfter r).1.outcome ≠ .failure (.notFound path)) ↔
        ¬ m.MissesFile r program)) ∧
    (m.findTool? r.workingDir r.settings.executable = none →
      (m.run timeout cancelAfter r).1.outcome = .failure (.notFound r.settings.executable)) ∧
    ∀ c : Coordinator, c.health ≠ .notFound →
      (∀ message, (c.handle message).1.health = .notFound ↔ c.stopped = false ∧
        ∃ run result path, message = .finished run (.completed result) ∧ c.Holds run ∧
          result.outcome = .failure (.notFound path)) ∧
      ∀ run, c.stopped = false → c.Holds run →
        ((c.handle (.finished run (.completed (m.run timeout cancelAfter r).1))).1.health =
            .notFound ↔
          ∀ program, m.findTool? r.workingDir r.settings.executable = some program →
            m.MissesFile r program) := by
  refine ⟨fun program hfind => ?_, fun hnone => by rw [run_of_none hlive hnone],
    fun c hhealth => ⟨fun message => Coordinator.health_notFound_iff hhealth,
      fun run hrunning hholds => ?_⟩⟩
  · rw [← not_exists, exists_notFound_iff hlive, hfind]
    simp only [Option.some.injEq, forall_eq']
  · rw [Coordinator.health_notFound_iff hhealth, and_iff_right hrunning, ← exists_notFound_iff hlive]
    constructor
    · rintro ⟨run', result, path, heq, -, h⟩
      cases heq
      exact ⟨path, h⟩
    · rintro ⟨path, h⟩
      exact ⟨run, _, path, rfl, hholds, h⟩

/-- A machine with the tool along its search path, and without the directory of a workflow file. -/
def homeless : Machine where
  files := ({} : FileTree).add (FileTree.placeOf (.ofString "/usr/bin/actionlint"))
    (.program "actionlint")
  searchPath := [.ofString "/usr/bin"]

/-- A machine that has the tool and the directory. -/
theorem missing_iff_of_tool :
    let m : Machine := { homeless with
      files := homeless.files.addDirectory (FileTree.placeOf (.ofString "/repo")) }
    let r := (Launch.workflowRun 0).request
    m.findTool? r.workingDir r.settings.executable = some (.ofString "/usr/bin/actionlint") ∧
      ∀ path, (m.run defaultTimeout none r).1.outcome ≠ .failure (.notFound path) := by
  intro m r
  have hfind : m.findTool? r.workingDir r.settings.executable =
      some (.ofString "/usr/bin/actionlint") := by decide +kernel
  refine ⟨hfind, ((missing_iff m defaultTimeout none r nofun).1 _ hfind).mpr ?_⟩
  rw [← startFault?_eq_notFound_iff]
  decide +kernel

/-- The tool is found and may be run, and without the directory it counts as missing, for all
documents. -/
theorem homeless_missing :
    let run := Launch.workflowRun 0
    let result := (homeless.run defaultTimeout none run.request).1
    let c := (Launch.workflow.after []).1
    homeless.findTool? run.request.workingDir run.request.settings.executable =
        some (.ofString "/usr/bin/actionlint") ∧
      isRunnable homeless.files (.ofString "/usr/bin/actionlint") = true ∧
      result.outcome = .failure (.notFound "actionlint") ∧ c.health = .good ∧
      (c.handle (.finished run (.completed result))).1.health = .notFound := by
  decide +kernel

end Machine

end WorkflowLint

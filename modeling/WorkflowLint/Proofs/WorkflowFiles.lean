import WorkflowLint.Workflow
import WorkflowLint.Proofs.Paths
import Mathlib.Data.List.Forall2
/-!
# Which documents are workflow files

A pattern accepts what its parts spell one after another (`Glob.accepts_iff`), however the matcher
goes about it. The pattern of workflow files has two slashes of its own, and its name has none. So of
what the slashes of a path cut, it fixes the last three segments, and nothing before them
(`Workflow.accepts_iff`).
-/

namespace WorkflowLint

/-! ## Patterns -/

namespace Glob

/-- What a part may stand for. -/
def Part.Spells : Part → List UInt8 → Prop
  | .directories, s => s = [] ∨ ∃ a, s = a ++ [Path.slash]
  | .literal bytes, s => s = bytes
  | .name, s => Path.slash ∉ s
  | .oneOf choices, s => s ∈ choices

variable {rest : List UInt8 → Bool} {lead s t : List UInt8}

theorem strip?_eq_some_iff : strip? lead s = some t ↔ s = lead ++ t := by
  induction lead generalizing s with
  | nil => exact Option.some.injEq s t ▸ Iff.rfl
  | cons b lead ih =>
    cases s with
    | nil => simp [strip?]
    | cons c s =>
      rw [strip?, List.cons_append, List.cons.injEq]
      split
      · rename_i hb
        rw [ih, and_iff_right hb.symm]
      · rename_i hb
        exact iff_of_false (Option.some_ne_none t).symm fun h => hb h.1.symm

theorem any_strip?_iff : (strip? lead s).any rest = true ↔ ∃ t, s = lead ++ t ∧ rest t = true := by
  rw [Option.any_eq_true]
  exact exists_congr fun t => and_congr_left fun _ => strip?_eq_some_iff

theorem afterSlash_iff :
    afterSlash rest s = true ↔ ∃ a t, s = (a ++ [Path.slash]) ++ t ∧ rest t = true := by
  induction s with
  | nil => simp [afterSlash]
  | cons c s ih =>
    rw [afterSlash, Bool.or_eq_true, ih, Bool.and_eq_true, decide_eq_true_eq]
    constructor
    · rintro (⟨rfl, hrest⟩ | ⟨a, t, rfl, hrest⟩)
      · exact ⟨[], s, rfl, hrest⟩
      · exact ⟨c :: a, t, rfl, hrest⟩
    · rintro ⟨a, t, hs, hrest⟩
      cases a with
      | nil =>
        obtain ⟨rfl, rfl⟩ := List.cons.inj hs
        exact .inl ⟨rfl, hrest⟩
      | cons b a =>
        obtain ⟨rfl, rfl⟩ := List.cons.inj hs
        exact .inr ⟨a, t, rfl, hrest⟩

theorem afterName_iff :
    afterName rest s = true ↔ ∃ a t, s = a ++ t ∧ Path.slash ∉ a ∧ rest t = true := by
  induction s with
  | nil =>
    constructor
    · exact fun hrest => ⟨[], [], rfl, List.not_mem_nil, hrest⟩
    · rintro ⟨a, t, hs, -, hrest⟩
      obtain ⟨rfl, rfl⟩ := List.append_eq_nil_iff.mp hs.symm
      exact hrest
  | cons c s ih =>
    rw [afterName, Bool.or_eq_true, Bool.and_eq_true, ih, decide_eq_true_eq]
    constructor
    · rintro (hrest | ⟨hc, a, t, rfl, ha, hrest⟩)
      · exact ⟨[], c :: s, rfl, List.not_mem_nil, hrest⟩
      · exact ⟨c :: a, t, rfl, List.not_mem_cons_of_ne_of_not_mem (Ne.symm hc) ha, hrest⟩
    · rintro ⟨a, t, hs, ha, hrest⟩
      cases a with
      | nil =>
        rw [hs]
        exact .inl hrest
      | cons b a =>
        obtain ⟨rfl, rfl⟩ := List.cons.inj hs
        rw [List.mem_cons, not_or] at ha
        exact .inr ⟨Ne.symm ha.1, a, t, rfl, ha.2, hrest⟩

theorem Part.accepts_iff (p : Part) :
    p.accepts rest s = true ↔ ∃ a t, s = a ++ t ∧ p.Spells a ∧ rest t = true := by
  cases p with
  | directories =>
    rw [Part.accepts, Bool.or_eq_true, afterSlash_iff]
    constructor
    · rintro (hrest | ⟨a, t, hs, hrest⟩)
      · exact ⟨[], s, rfl, .inl rfl, hrest⟩
      · exact ⟨a ++ [Path.slash], t, hs, .inr ⟨a, rfl⟩, hrest⟩
    · rintro ⟨a, t, rfl, rfl | ⟨a, rfl⟩, hrest⟩
      · exact .inl hrest
      · exact .inr ⟨a, t, rfl, hrest⟩
  | literal bytes =>
    rw [Part.accepts, any_strip?_iff]
    constructor
    · rintro ⟨t, hs, hrest⟩
      exact ⟨bytes, t, hs, rfl, hrest⟩
    · rintro ⟨_, t, hs, rfl, hrest⟩
      exact ⟨t, hs, hrest⟩
  | name =>
    exact afterName_iff
  | oneOf choices =>
    rw [Part.accepts, List.any_eq_true]
    simp only [any_strip?_iff]
    constructor
    · rintro ⟨bytes, hbytes, t, hs, hrest⟩
      exact ⟨bytes, t, hs, hbytes, hrest⟩
    · rintro ⟨bytes, t, hs, hbytes, hrest⟩
      exact ⟨bytes, hbytes, t, hs, hrest⟩

/-- **A pattern accepts what its parts spell one after another.** -/
theorem accepts_iff (g : Glob) :
    g.accepts s = true ↔ ∃ ss, List.Forall₂ Part.Spells g ss ∧ ss.flatten = s := by
  induction g generalizing s with
  | nil =>
    rw [accepts, List.isEmpty_iff]
    constructor
    · rintro rfl
      exact ⟨[], .nil, rfl⟩
    · rintro ⟨_, ⟨⟩, rfl⟩
      rfl
  | cons p g ih =>
    rw [accepts, Part.accepts_iff]
    constructor
    · rintro ⟨a, t, rfl, ha, ht⟩
      obtain ⟨ss, hss, rfl⟩ := ih.mp ht
      exact ⟨a :: ss, .cons ha hss, rfl⟩
    · rintro ⟨_, hall, rfl⟩
      obtain ⟨a, ss, ha, hss, rfl⟩ := List.forall₂_cons_left_iff.mp hall
      exact ⟨a, ss.flatten, rfl, ha, ih.mpr ⟨ss, hss, rfl⟩⟩

end Glob

/-! ## The last segments of a path -/

namespace Path

theorem cut_injective {as bs : List UInt8} (h : cut as = cut bs) : as = bs := by
  rw [← glue_cut as, h, glue_cut]

theorem exists_cut_eq_append_iff {s : List UInt8} {after : List (List UInt8)} (hne : after ≠ [])
    (hafter : ∀ n ∈ after, slash ∉ n) :
    (∃ before, cut s = before ++ after) ↔
      ∃ lead, Glob.Part.Spells .directories lead ∧ s = lead ++ glue after := by
  constructor
  · rintro ⟨before, hs⟩
    by_cases hbefore : before = []
    · exact ⟨[], .inl rfl, by rw [← glue_cut s, hs, hbefore]; rfl⟩
    · have hslash : ∀ n ∈ before, slash ∉ n := fun n hn =>
        slash_not_mem_of_mem_cut (hs ▸ List.mem_append_left after hn)
      refine ⟨glue before ++ [slash], .inr ⟨glue before, rfl⟩, cut_injective ?_⟩
      rw [List.append_assoc, List.singleton_append, cut_append_slash, cut_glue hslash hbefore,
        cut_glue hafter hne, hs]
  · rintro ⟨lead, rfl | ⟨a, rfl⟩, rfl⟩
    · exact ⟨[], cut_glue hafter hne⟩
    · refine ⟨cut a, ?_⟩
      rw [List.append_assoc, List.singleton_append, cut_append_slash, cut_glue hafter hne]

end Path

/-! ## Workflow files -/

namespace Workflow

open Text.Utf8 (ofString)

/-- The last segments of the path of a workflow file. -/
def trail (name : List UInt8) : List (List UInt8) := [ofString ".github", ofString "workflows", name]

/-- What the name of a workflow file ends in. -/
def HasExtension (name : List UInt8) : Prop :=
  ofString ".yml" <:+ name ∨ ofString ".yaml" <:+ name

theorem slash_not_mem_trail {name : List UInt8} (hname : Path.slash ∉ name) :
    ∀ n ∈ trail name, Path.slash ∉ n := by
  refine List.forall_mem_cons.mpr ⟨by decide +kernel, ?_⟩
  exact List.forall_mem_cons.mpr ⟨by decide +kernel, List.forall_mem_singleton.mpr hname⟩

theorem glue_trail (name : List UInt8) :
    Path.glue (trail name) = ofString ".github/workflows/" ++ name := by
  have hlead : ofString ".github/workflows/" =
    ofString ".github" ++ [Path.slash] ++ (ofString "workflows" ++ [Path.slash]) := by decide +kernel
  simp [Path.glue, trail, hlead, List.intercalate_cons_cons]

theorem hasExtension_iff {name : List UInt8} : HasExtension name ↔
    ∃ stem, ∃ ext ∈ [ofString "yml", ofString "yaml"], name = stem ++ (ofString "." ++ ext) := by
  have hyml : ofString ".yml" = ofString "." ++ ofString "yml" := by decide +kernel
  have hyaml : ofString ".yaml" = ofString "." ++ ofString "yaml" := by decide +kernel
  rw [HasExtension, hyml, hyaml]
  constructor
  · rintro (⟨stem, rfl⟩ | ⟨stem, rfl⟩)
    · exact ⟨stem, _, List.mem_cons_self, rfl⟩
    · exact ⟨stem, _, List.mem_cons_of_mem _ List.mem_cons_self, rfl⟩
  · rintro ⟨stem, ext, hext, rfl⟩
    rcases List.mem_pair.mp hext with rfl | rfl
    · exact .inl ⟨stem, rfl⟩
    · exact .inr ⟨stem, rfl⟩

theorem accepts_paths_iff {s : List UInt8} : paths.accepts s = true ↔
    ∃ lead name, Glob.Part.Spells .directories lead ∧ s = lead ++ Path.glue (trail name) ∧
      Path.slash ∉ name ∧ HasExtension name := by
  simp only [hasExtension_iff, glue_trail]
  rw [Glob.accepts_iff]
  constructor
  · rintro ⟨ss, hss, rfl⟩
    simp only [paths, List.forall₂_cons_left_iff, List.forall₂_nil_left_iff] at hss
    obtain ⟨lead, -, hlead, ⟨_, -, rfl, ⟨stem, -, hstem, ⟨_, -, rfl, ⟨ext, -, hext, rfl, rfl⟩,
      rfl⟩, rfl⟩, rfl⟩, rfl⟩ := hss
    have hslash : Path.slash ∉ ofString "." ++ ext := by
      rcases List.mem_pair.mp hext with rfl | rfl <;> decide +kernel
    refine ⟨lead, stem ++ (ofString "." ++ ext), hlead, by simp, ?_, stem, ext, hext, rfl⟩
    rw [List.mem_append, not_or]
    exact ⟨hstem, hslash⟩
  · rintro ⟨lead, _, hlead, rfl, hname, stem, ext, hext, rfl⟩
    rw [List.mem_append, not_or] at hname
    refine ⟨[lead, ofString ".github/workflows/", stem, ofString ".", ext], ?_, by simp⟩
    exact .cons hlead (.cons rfl (.cons hname.1 (.cons rfl (.cons hext .nil))))

/-- **The last three segments of a path decide.** -/
theorem accepts_iff {p : Path} : paths.accepts p.bytes = true ↔
    ∃ before name, p.segments = before ++ trail name ∧ HasExtension name := by
  rw [accepts_paths_iff]
  constructor
  · rintro ⟨lead, name, hlead, hs, hname, hextension⟩
    obtain ⟨before, hcut⟩ := (Path.exists_cut_eq_append_iff (List.cons_ne_nil _ _)
      (slash_not_mem_trail hname)).mpr ⟨lead, hlead, hs⟩
    exact ⟨before, name, hcut, hextension⟩
  · rintro ⟨before, name, hcut, hextension⟩
    have hmem : name ∈ p.segments := by
      rw [hcut]
      simp [trail]
    have hname : Path.slash ∉ name := Path.slash_not_mem_of_mem_cut hmem
    obtain ⟨lead, hlead, hs⟩ := (Path.exists_cut_eq_append_iff (List.cons_ne_nil _ _)
      (slash_not_mem_trail hname)).mp ⟨before, hcut⟩
    exact ⟨lead, name, hlead, hs, hname, hextension⟩

theorem qualifies_iff (url : Url) (language : String) : qualifies url language = true ↔
    url.scheme = Url.fileScheme ∧ language ∈ languages ∧ ∃ p, url.toPath? = some p ∧
      ∃ before name, p.segments = before ++ trail name ∧ HasExtension name := by
  rw [qualifies, Bool.and_eq_true, Bool.and_eq_true, decide_eq_true_eq, List.contains_iff_mem,
    Option.any_eq_true, and_assoc]
  simp only [accepts_iff]

end Workflow

end WorkflowLint

import WorkflowLint.FileTree
import Mathlib.Data.List.Infix
/-!
# Where paths lead

A path names a place, whatever there is (`Path.place`). A file tree leads it there or nowhere
(`FileTree.locate_eq`), and all that was passed on the way is a directory (`FileTree.Reached`). So a
name without slashes, seen from a directory, leads to a file only if the directory has a file of
that name (`FileTree.file?_join_iff`).
-/

namespace WorkflowLint

namespace Path

/-! ## Segments -/

theorem cut_nil : cut [] = [[]] := rfl

theorem cut_slash (bs : List UInt8) : cut (slash :: bs) = [] :: cut bs := by
  simp [cut]

theorem cut_cons {b : UInt8} (hb : b ≠ slash) (bs : List UInt8) :
    ∃ first rest, cut bs = first :: rest ∧ cut (b :: bs) = (b :: first) :: rest := by
  refine ⟨_, _, rfl, ?_⟩
  simp [cut, hb]

theorem cut_of_not_mem {n : List UInt8} (hn : slash ∉ n) : cut n = [n] := by
  induction n with
  | nil => rfl
  | cons b n ih =>
    rw [List.mem_cons, not_or] at hn
    obtain ⟨first, rest, hcut, hcons⟩ := cut_cons (Ne.symm hn.1) n
    rw [ih hn.2] at hcut
    obtain ⟨rfl, rfl⟩ := List.cons.inj hcut
    exact hcons

theorem cut_append_slash (as bs : List UInt8) : cut (as ++ slash :: bs) = cut as ++ cut bs := by
  induction as with
  | nil => exact cut_slash bs
  | cons a as ih =>
    by_cases ha : a = slash
    · subst ha
      rw [List.cons_append, cut_slash, cut_slash, ih, List.cons_append]
    · obtain ⟨first, rest, hcut, hcons⟩ := cut_cons ha as
      obtain ⟨first', rest', hcut', hcons'⟩ := cut_cons ha (as ++ slash :: bs)
      rw [ih, hcut, List.cons_append] at hcut'
      obtain ⟨rfl, rfl⟩ := List.cons.inj hcut'
      rw [List.cons_append, hcons', hcons, List.cons_append]

/-- The components before those of inner segments. -/
def front (isAbsolute : Bool) (first : List UInt8) : List Component :=
  if isAbsolute then [.root] else if first = dot then [.current]
  else (innerComponent? first).toList

theorem components_eq {p : Path} {first : List UInt8} {rest : List (List UInt8)}
    (hp : p.segments = first :: rest) :
    p.components = front p.isAbsolute first ++ rest.filterMap innerComponent? := by
  rw [components, hp, front]
  dsimp only
  split
  · rfl
  · split
    · rfl
    · cases hf : innerComponent? first <;> simp [hf]

theorem isAbsolute_of_not_mem {n : List UInt8} (hn : slash ∉ n) :
    (⟨n⟩ : Path).isAbsolute = false := by
  cases n with
  | nil => rfl
  | cons b n => simpa [isAbsolute, eq_comm] using fun hb : slash = b => hn (by simp [hb])

theorem exists_segments (p : Path) : ∃ first rest, p.segments = first :: rest := ⟨_, _, rfl⟩

theorem segments_join_of_relative {p q : Path} (hq : q.isAbsolute = false) (hp : p.bytes ≠ []) :
    ∃ first rest, (p.join q).segments = first :: (rest ++ q.segments) ∧
      p.components = front p.isAbsolute first ++ rest.filterMap innerComponent? ∧
      (p.join q).isAbsolute = p.isAbsolute := by
  rw [join, if_neg (by simp [hq, hp])]
  split
  · rename_i hlast
    obtain ⟨as, has⟩ := List.getLast?_eq_some_iff.mp hlast
    obtain ⟨first, rest, hcut⟩ := exists_segments ⟨as⟩
    refine ⟨first, rest, ?_, ?_, ?_⟩
    · rw [segments, has, List.append_assoc, List.singleton_append, cut_append_slash,
        show cut as = first :: rest from hcut, List.cons_append, segments]
    · have hsegments : p.segments = first :: (rest ++ [[]]) := by
        rw [segments, has, cut_append_slash, cut_nil, show cut as = first :: rest from hcut,
          List.cons_append]
      rw [components_eq hsegments, List.filterMap_append]
      simp [innerComponent?]
    · rw [isAbsolute, isAbsolute, List.head?_append_of_ne_nil _ hp]
  · obtain ⟨first, rest, hcut⟩ := exists_segments p
    refine ⟨first, rest, ?_, components_eq hcut, ?_⟩
    · rw [segments, cut_append_slash, show cut p.bytes = first :: rest from hcut, List.cons_append,
        segments]
    · rw [isAbsolute, isAbsolute, List.head?_append_of_ne_nil _ hp]

/-- A name seen from a path: the segments of both, the components of both, and the bytes of both
with a slash between. -/
theorem segments_join {p : Path} {n : List UInt8} (hn : slash ∉ n) (hp : p.bytes ≠ []) :
    ∃ first rest, (p.join ⟨n⟩).segments = first :: (rest ++ [n]) ∧
      p.components = front p.isAbsolute first ++ rest.filterMap innerComponent? ∧
      (p.join ⟨n⟩).isAbsolute = p.isAbsolute := by
  have hjoin := segments_join_of_relative (isAbsolute_of_not_mem hn) hp
  rwa [show (⟨n⟩ : Path).segments = [n] from cut_of_not_mem hn] at hjoin

theorem components_name {n : List UInt8} (hn : slash ∉ n) :
    (⟨n⟩ : Path).components = front false n := by
  have hsegments : (⟨n⟩ : Path).segments = n :: [] := cut_of_not_mem hn
  rw [components_eq hsegments, isAbsolute_of_not_mem hn]
  exact List.append_nil _

theorem components_join {p : Path} {n : List UInt8} (hn : slash ∉ n) (hdot : n ≠ dot) :
    (p.join ⟨n⟩).components = p.components ++ (innerComponent? n).toList := by
  by_cases hp : p.bytes = []
  · have hempty : p.components = [] := by
      rw [show p = ⟨[]⟩ from congrArg Path.mk hp]
      rfl
    rw [join, if_pos (.inr hp), components_name hn, hempty, front]
    simp [hdot]
  · obtain ⟨first, rest, hsegments, hcomponents, habsolute⟩ := segments_join hn hp
    rw [components_eq hsegments, habsolute, hcomponents, List.filterMap_append, List.append_assoc]
    cases hc : innerComponent? n <;> simp [hc]

end Path

/-! ## Places -/

/-- The place a component leads to. -/
def Component.follow (place : FilePlace) : Component → FilePlace
  | .root => []
  | .current => place
  | .parent => place.dropLast
  | .normal name => place ++ [name]

/-- The place a path names, whatever is there. -/
def Path.place (p : Path) : FilePlace := p.components.foldl Component.follow []

namespace FileTree

variable {t : FileTree} {p : Path} {place q : FilePlace} {n : List UInt8}

/-- The place to which components lead from another. -/
def walk (t : FileTree) (place : FilePlace) (cs : List Component) : Except FileFault FilePlace :=
  cs.foldlM t.step place

theorem walk_cons {c : Component} {cs : List Component} (h : t.walk place (c :: cs) = .ok q) :
    ∃ r, t.step place c = .ok r ∧ t.walk r cs = .ok q := by
  rw [walk, List.foldlM_cons] at h
  cases hr : t.step place c with
  | error f =>
    rw [hr] at h
    cases h
  | ok r =>
    rw [hr] at h
    exact ⟨r, rfl, h⟩

theorem step_eq {c : Component} (h : t.step place c = .ok q) : q = c.follow place := by
  unfold step at h
  split at h
  · exact (Except.ok.inj h).symm
  · exact (Except.ok.inj h).symm
  · split at h
    · exact (Except.ok.inj h).symm
    · cases h
  · split at h
    · cases h
    · split at h
      · cases h
      · split at h
        · cases h
        · exact (Except.ok.inj h).symm

theorem walk_eq {cs : List Component} (h : t.walk place cs = .ok q) :
    q = cs.foldl Component.follow place := by
  induction cs generalizing place with
  | nil => exact (Except.ok.inj h).symm
  | cons c cs ih =>
    obtain ⟨r, hr, hrest⟩ := walk_cons h
    rw [List.foldl_cons, ← step_eq hr]
    exact ih hrest

/-- All that was passed on the way to a place is a directory. -/
def Reached (t : FileTree) (place : FilePlace) : Prop :=
  ∀ q, q <+: place → q ≠ place → t.at? q = some .directory

theorem Reached.nil : t.Reached [] := fun _ hq hne => absurd (List.prefix_nil.mp hq) hne

theorem Reached.step {c : Component} (hplace : t.Reached place) (h : t.step place c = .ok q) :
    t.Reached q := by
  have hfollow := step_eq h
  cases c with
  | root =>
    rw [hfollow]
    exact Reached.nil
  | current =>
    rw [hfollow]
    exact hplace
  | parent =>
    rw [hfollow]
    intro r hr hne
    refine hplace r (hr.trans (List.dropLast_prefix place)) ?_
    rintro rfl
    exact hne (hr.eq_of_length_le (by simp [Component.follow]))
  | normal name =>
    have hdirectory : t.at? place = some .directory := by
      by_contra hnot
      rw [FileTree.step, if_pos hnot] at h
      cases h
    rw [hfollow]
    intro r hr hne
    rcases List.prefix_concat_iff.mp hr with rfl | hr
    · exact absurd rfl hne
    · by_cases heq : r = place
      · rw [heq]
        exact hdirectory
      · exact hplace r hr heq

theorem Reached.walk {cs : List Component} (hplace : t.Reached place)
    (h : t.walk place cs = .ok q) : t.Reached q := by
  induction cs generalizing place with
  | nil =>
    obtain rfl := Except.ok.inj h
    exact hplace
  | cons c cs ih =>
    obtain ⟨r, hr, hrest⟩ := walk_cons h
    exact ih (hplace.step hr) hrest

theorem locate_eq_ok_iff : t.locate p = .ok q ↔ 0 ∉ p.bytes ∧ t.walk [] p.components = .ok q ∧
    (namesDirectory p = true → t.at? q = some .directory) := by
  rw [locate]
  split
  · rename_i hnul
    refine iff_of_false (by simp) fun h => h.1 ?_
    simpa using hnul
  · rename_i hnul
    rw [← walk]
    have hzero : 0 ∉ p.bytes := by simpa using hnul
    cases hw : t.walk [] p.components with
    | error f => exact iff_of_false (by simp [bind, Except.bind]) fun h => absurd h.2.1 (by simp)
    | ok r =>
      show (if namesDirectory p ∧ t.at? r ≠ some .directory then Except.error FileFault.notDirectory
        else .ok r) = .ok q ↔ _
      split
      · rename_i hbad
        refine iff_of_false (by simp) fun h => hbad.2 ?_
        rw [Except.ok.inj h.2.1]
        exact h.2.2 hbad.1
      · rename_i hgood
        rw [not_and, not_not] at hgood
        constructor
        · intro h
          obtain rfl := Except.ok.inj h
          exact ⟨hzero, rfl, hgood⟩
        · intro h
          exact h.2.1

theorem locate_eq (h : t.locate p = .ok q) : q = p.place :=
  walk_eq (locate_eq_ok_iff.mp h).2.1

theorem find_eq_ok_iff {e : FileEntry} :
    t.find p = .ok e ↔ t.locate p = .ok p.place ∧ t.at? p.place = some e := by
  rw [find]
  cases hl : t.locate p with
  | error f => exact iff_of_false (by simp [bind, Except.bind]) fun h => absurd h.1 (by simp)
  | ok q =>
    obtain rfl := locate_eq hl
    cases hat : t.at? p.place <;> simp [bind, Except.bind, hat]

theorem isDirectory_iff :
    t.isDirectory p = true ↔ t.locate p = .ok p.place ∧ t.at? p.place = some .directory := by
  rw [← find_eq_ok_iff, isDirectory]
  split
  · simp_all
  · rename_i hne
    exact iff_of_false (by simp) hne

theorem file?_eq_some_iff {e : FileEntry} : t.file? p = some e ↔
    t.locate p = .ok p.place ∧ t.at? p.place = some e ∧ e ≠ .directory := by
  rw [← and_assoc, ← find_eq_ok_iff, file?]
  cases t.find p with
  | error f => simp
  | ok e' =>
    cases e' with
    | directory =>
      refine iff_of_false (by simp) fun h => h.2 ?_
      exact (Except.ok.inj h.1).symm
    | file | program =>
      constructor
      · intro h
        obtain rfl := Option.some.inj h
        exact ⟨rfl, by simp⟩
      · intro h
        rw [← Except.ok.inj h.1]

/-! ## Names seen from a directory -/

theorem walk_append {cs ds : List Component} :
    t.walk place (cs ++ ds) = .ok q ↔ ∃ r, t.walk place cs = .ok r ∧ t.walk r ds = .ok q := by
  rw [walk, List.foldlM_append, ← walk]
  cases hr : t.walk place cs with
  | error f => exact iff_of_false (by simp [bind, Except.bind]) fun h => absurd h (by simp)
  | ok r =>
    constructor
    · exact fun h => ⟨r, rfl, h⟩
    · rintro ⟨r', hr', h⟩
      obtain rfl := Except.ok.inj hr'
      exact h

theorem namesDirectory_join (hn : Path.slash ∉ n) (hp : p.bytes ≠ []) :
    namesDirectory (p.join ⟨n⟩) = true ↔ n = [] ∨ n = Path.dot := by
  obtain ⟨first, rest, hsegments, -, -⟩ := Path.segments_join hn hp
  obtain ⟨last, others, hothers⟩ := List.exists_cons_of_ne_nil
    (List.append_ne_nil_of_right_ne_nil rest.reverse (List.cons_ne_nil first []))
  rw [namesDirectory, hsegments, List.reverse_cons, List.reverse_append, List.reverse_singleton,
    List.singleton_append, List.cons_append, hothers]
  simp

theorem namesDirectory_name (hn : Path.slash ∉ n) : namesDirectory ⟨n⟩ = false := by
  rw [namesDirectory, Path.segments, Path.cut_of_not_mem hn]
  rfl

/-- An empty name and a dot lead to no file, and neither does a double dot: what it leads back to was
passed on the way. -/
theorem innerComponent?_of_file {e : FileEntry} (hn : Path.slash ∉ n)
    (hfile : t.file? (p.join ⟨n⟩) = some e) : Path.innerComponent? n = some (.normal n) := by
  obtain ⟨hlocate, hentry, hne⟩ := file?_eq_some_iff.mp hfile
  obtain ⟨-, hwalk, hnames⟩ := locate_eq_ok_iff.mp hlocate
  rw [Path.innerComponent?]
  split
  · rename_i hempty
    exfalso
    by_cases hp : p.bytes = []
    · have hplace : (p.join ⟨n⟩).place = [] := by
        rw [Path.join, if_pos (.inr hp), Path.place, Path.components_name hn]
        rcases hempty with rfl | rfl <;> rfl
      rw [hplace] at hentry
      exact hne (Option.some.inj hentry).symm
    · have hdirectory := hnames ((namesDirectory_join hn hp).mpr hempty)
      exact hne (Option.some.inj (hentry.symm.trans hdirectory))
  · rename_i hempty
    rw [not_or] at hempty
    split
    · rename_i hup
      exfalso
      -- the parent was passed on the way, so it is a directory
      have hcomponents : (p.join ⟨n⟩).components = p.components ++ [.parent] := by
        rw [Path.components_join hn hempty.2, Path.innerComponent?, if_neg (not_or.mpr hempty),
          if_pos hup]
        rfl
      rw [hcomponents] at hwalk
      obtain ⟨r, hr, hstep⟩ := walk_append.mp hwalk
      have hback : (p.join ⟨n⟩).place = r.dropLast := walk_eq hstep
      have hdirectory : t.at? r.dropLast = some .directory := by
        by_cases hroot : r = []
        · rw [hroot]
          rfl
        · refine (Reached.nil.walk hr) _ (List.dropLast_prefix r) fun heq => hroot ?_
          have hlength := congrArg List.length heq
          rw [List.length_dropLast] at hlength
          exact List.eq_nil_of_length_eq_zero (by omega)
      rw [hback, hdirectory] at hentry
      exact hne (Option.some.inj hentry).symm
    · rfl

theorem place_join (hn : Path.slash ∉ n) (hname : Path.innerComponent? n = some (.normal n)) :
    (p.join ⟨n⟩).place = p.place ++ [n] := by
  have hdot : n ≠ Path.dot := by
    rintro rfl
    cases hname
  rw [Path.place, Path.components_join hn hdot, hname, List.foldl_append]
  rfl

theorem walk_single : t.walk place [.normal n] = .ok q ↔
    t.at? place = some .directory ∧ n.length ≤ maxName ∧ (t.at? (place ++ [n])).isSome = true ∧
      q = place ++ [n] := by
  simp only [walk, List.foldlM_cons, List.foldlM_nil, bind_pure, step]
  split
  · rename_i hnot
    exact iff_of_false (by simp) fun h => hnot h.1
  · rename_i hdirectory
    rw [not_not] at hdirectory
    split
    · rename_i hlong
      exact iff_of_false (by simp) fun h => absurd h.2.1 (Nat.not_le.mpr hlong)
    · rename_i hshort
      split
      · rename_i hnone
        refine iff_of_false (by simp) fun h => ?_
        rw [Option.isNone_iff_eq_none] at hnone
        rw [hnone] at h
        exact absurd h.2.2.1 (by simp)
      · rename_i hsome
        rw [Bool.not_eq_true, Option.isNone_eq_false_iff] at hsome
        rw [Nat.not_lt] at hshort
        constructor
        · exact fun h => ⟨hdirectory, hshort, hsome, (Except.ok.inj h).symm⟩
        · rintro ⟨-, -, -, rfl⟩
          rfl

theorem zero_not_mem_join (hn : Path.slash ∉ n) :
    0 ∉ (p.join ⟨n⟩).bytes ↔ 0 ∉ p.bytes ∧ 0 ∉ n := by
  have hslash : (0 : UInt8) ≠ Path.slash := by decide
  rw [Path.join]
  split
  · rename_i hp
    rw [Path.isAbsolute_of_not_mem hn] at hp
    simp [hp.resolve_left Bool.false_ne_true]
  · split <;> simp [hslash]

theorem not_namesDirectory_join (hn : Path.slash ∉ n)
    (hname : Path.innerComponent? n = some (.normal n)) :
    namesDirectory (p.join ⟨n⟩) = false := by
  by_cases hp : p.bytes = []
  · rw [Path.join, if_pos (.inr hp)]
    exact namesDirectory_name hn
  · rw [← Bool.not_eq_true, namesDirectory_join hn hp]
    rintro (rfl | rfl)
    · cases hname
    · cases hname

/-- **A name leads to a file exactly if it is seen from a directory that has the file.** -/
theorem file?_join_iff {e : FileEntry} (hn : Path.slash ∉ n)
    (hname : Path.innerComponent? n = some (.normal n)) :
    t.file? (p.join ⟨n⟩) = some e ↔ t.isDirectory p = true ∧ 0 ∉ n ∧ n.length ≤ maxName ∧
      t.at? (p.place ++ [n]) = some e ∧ e ≠ .directory := by
  have hdot : n ≠ Path.dot := by
    rintro rfl
    cases hname
  have hcomponents : (p.join ⟨n⟩).components = p.components ++ [.normal n] := by
    rw [Path.components_join hn hdot, hname]
    rfl
  rw [file?_eq_some_iff, isDirectory_iff, place_join hn hname, locate_eq_ok_iff, locate_eq_ok_iff,
    hcomponents, walk_append, not_namesDirectory_join hn hname, zero_not_mem_join hn]
  constructor
  · rintro ⟨⟨⟨hzero, hzero'⟩, ⟨r, hr, hstep⟩, -⟩, hentry, hne⟩
    obtain rfl : r = p.place := walk_eq hr
    obtain ⟨hdirectory, hshort, -, -⟩ := walk_single.mp hstep
    exact ⟨⟨⟨hzero, hr, fun _ => hdirectory⟩, hdirectory⟩, hzero', hshort, hentry, hne⟩
  · rintro ⟨⟨⟨hzero, hwalk, -⟩, hdirectory⟩, hzero', hshort, hentry, hne⟩
    have hsome : (t.at? (p.place ++ [n])).isSome = true := by rw [hentry]; rfl
    refine ⟨⟨⟨hzero, hzero'⟩, ⟨p.place, hwalk, ?_⟩, by simp⟩, hentry, hne⟩
    exact walk_single.mpr ⟨hdirectory, hshort, hsome, rfl⟩

end FileTree

end WorkflowLint

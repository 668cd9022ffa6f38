import WorkflowLint.Proofs.Places
import WorkflowLint.Proofs.Text.Decoding
import Mathlib.Data.List.Basic
/-!
# Paths taken apart and put together

A path is its segments with slashes between (`Path.glue_cut`, `Path.cut_glue`), and the segments of a
text are texts (`Path.exists_of_mem_cut`). So the parent of a file has its components but the last
(`Path.exists_parent?`), names with slashes between are the components of a relative path
(`Path.components_slashed`), and seen from another path, they follow its components
(`Path.components_join_slashed`).
-/

namespace WorkflowLint

theorem not_mem_of_mem_splitOn {α : Type} [BEq α] [LawfulBEq α] {x : α} {xs l : List α}
    (hl : l ∈ xs.splitOn x) : x ∉ l := by
  induction xs generalizing l with
  | nil =>
    rw [List.splitOn_nil, List.mem_singleton] at hl
    rw [hl]
    exact List.not_mem_nil
  | cons y ys ih =>
    rw [List.splitOn_cons_eq_if_modifyHead] at hl
    split at hl
    · rcases List.mem_cons.mp hl with rfl | hl
      · exact List.not_mem_nil
      · exact ih hl
    · rename_i hy
      obtain ⟨first, rest, hsplit⟩ := List.exists_cons_of_ne_nil (List.splitOn_ne_nil x ys)
      rw [hsplit, List.modifyHead_cons] at hl
      rcases List.mem_cons.mp hl with rfl | hl
      · rw [List.mem_cons, not_or]
        exact ⟨fun heq => hy (by rw [heq]; exact BEq.rfl), ih (hsplit ▸ List.mem_cons_self)⟩
      · exact ih (hsplit ▸ List.mem_cons_of_mem _ hl)

namespace Path

/-! ## Segments -/

theorem cut_eq_splitOn (bs : List UInt8) : cut bs = bs.splitOn slash := by
  induction bs with
  | nil => rfl
  | cons b bs ih =>
    rw [List.splitOn_cons_eq_if_modifyHead, ← ih]
    by_cases hb : b = slash
    · subst hb
      exact cut_slash bs
    · obtain ⟨first, rest, hcut, hcons⟩ := cut_cons hb bs
      rw [hcons, hcut, if_neg (by simpa using hb), List.modifyHead_cons]

theorem glue_cut (bs : List UInt8) : glue (cut bs) = bs := by
  rw [cut_eq_splitOn, glue, List.intercalate_splitOn]

theorem cut_glue {ss : List (List UInt8)} (hss : ∀ s ∈ ss, slash ∉ s) (hne : ss ≠ []) :
    cut (glue ss) = ss := by
  rw [cut_eq_splitOn, glue]
  exact List.splitOn_intercalate slash hss hne

theorem slash_not_mem_of_mem_cut {bs s : List UInt8} (hs : s ∈ cut bs) : slash ∉ s := by
  rw [cut_eq_splitOn] at hs
  exact not_mem_of_mem_splitOn hs

theorem slash_not_mem_encode {cs : List Char} (h : '/' ∉ cs) : slash ∉ Text.Utf8.encode cs := by
  intro hmem
  obtain ⟨c, hc, hb⟩ := List.mem_flatMap.mp hmem
  obtain rfl : c = '/' := Text.Utf8.eq_of_mem_encodeChar (by decide) hb
  exact h hc

theorem cut_ofString (s : String) :
    cut (Text.Utf8.ofString s) = (s.toList.splitOn '/').map Text.Utf8.encode := by
  have hsplit : ['/'].intercalate (s.toList.splitOn '/') = s.toList := List.intercalate_splitOn '/'
  have hglue : Text.Utf8.ofString s = glue ((s.toList.splitOn '/').map Text.Utf8.encode) := by
    rw [Text.Utf8.ofString, ← hsplit, Text.Utf8.encode_intercalate, hsplit]
    rfl
  rw [hglue]
  refine cut_glue (List.forall_mem_map.mpr fun l hl => ?_) (by simp [List.splitOn_ne_nil])
  exact slash_not_mem_encode (not_mem_of_mem_splitOn hl)

theorem exists_of_mem_cut {s : String} {n : List UInt8} (hn : n ∈ cut (Text.Utf8.ofString s)) :
    ∃ t, n = Text.Utf8.ofString t := by
  rw [cut_ofString] at hn
  obtain ⟨cs, -, rfl⟩ := List.mem_map.mp hn
  exact ⟨String.ofList cs, by rw [Text.Utf8.ofString, String.toList_ofList]⟩

/-! ## The parent of a path -/

theorem components_slash (bs : List UInt8) :
    (⟨slash :: bs⟩ : Path).components = .root :: (cut bs).filterMap innerComponent? := by
  have hsegments : (⟨slash :: bs⟩ : Path).segments = [] :: cut bs := cut_slash bs
  exact components_eq hsegments

theorem exists_of_isAbsolute {p : Path} (hp : p.isAbsolute = true) : ∃ bs, p = ⟨slash :: bs⟩ := by
  obtain ⟨bytes⟩ := p
  cases bytes with
  | nil => cases hp
  | cons b bs =>
    have hb : b = slash := by simpa [isAbsolute] using hp
    exact ⟨bs, by rw [hb]⟩

theorem components_root_glue {ss : List (List UInt8)} (hss : ∀ s ∈ ss, slash ∉ s) :
    (⟨slash :: glue ss⟩ : Path).components = .root :: ss.filterMap innerComponent? := by
  rw [components_slash]
  cases ss with
  | nil => rfl
  | cons s ss => rw [cut_glue hss (List.cons_ne_nil s ss)]

theorem innerComponent?_eq_none_iff {s : List UInt8} :
    innerComponent? s = none ↔ s = [] ∨ s = dot := by
  rw [innerComponent?]
  split
  · rename_i hs
    exact iff_of_true rfl hs
  · rename_i hs
    refine iff_of_false ?_ hs
    split <;> exact Option.some_ne_none _

theorem filterMap_dropWhile (ss : List (List UInt8)) :
    (ss.dropWhile fun s => (innerComponent? s).isNone).filterMap innerComponent? =
      ss.filterMap innerComponent? := by
  induction ss with
  | nil => rfl
  | cons s ss ih =>
    rw [List.dropWhile_cons]
    cases hs : innerComponent? s with
    | none => rw [List.filterMap_cons_none hs, ← ih, Option.isNone_none, if_pos rfl]
    | some c => rw [Option.isNone_some, if_neg Bool.false_ne_true]

theorem trimEnd_concat (ss : List (List UInt8)) (first : List UInt8) :
    trimEnd (ss ++ [first]) = ss.dropWhile (fun s => (innerComponent? s).isNone) ++ [first] := by
  induction ss with
  | nil => rfl
  | cons s ss ih =>
    obtain ⟨next, rest, hrest⟩ := List.exists_cons_of_ne_nil
      (List.append_ne_nil_of_right_ne_nil ss (List.cons_ne_nil first []))
    rw [List.cons_append, hrest, trimEnd, ← hrest, ih, List.dropWhile_cons]
    · by_cases hs : s = [] ∨ s = dot
      · simp [hs, innerComponent?_eq_none_iff]
      · simp [hs, innerComponent?_eq_none_iff]
    · exact List.cons_ne_nil next rest

/-- Segments back to front that mean something end in one that does. -/
theorem exists_of_getLast? {ss : List (List UInt8)} {c : Component}
    (hc : (ss.filterMap innerComponent?).getLast? = some c) :
    ∃ last others, (ss.reverse.dropWhile fun s => (innerComponent? s).isNone) = last :: others ∧
      ss.filterMap innerComponent? = (others.filterMap innerComponent?).reverse ++ [c] := by
  have hcomponents : ss.filterMap innerComponent? =
      ((ss.reverse.dropWhile fun s => (innerComponent? s).isNone).filterMap
        innerComponent?).reverse := by
    rw [filterMap_dropWhile, ← List.filterMap_reverse, List.reverse_reverse]
  cases hdrop : ss.reverse.dropWhile fun s => (innerComponent? s).isNone with
  | nil =>
    rw [hcomponents, hdrop] at hc
    cases hc
  | cons last others =>
    have hlast := List.head?_dropWhile_not (fun s => (innerComponent? s).isNone) ss.reverse
    rw [hdrop] at hlast hcomponents
    obtain ⟨d, hd⟩ := Option.isSome_iff_exists.mp (Option.isNone_eq_false_iff.mp hlast)
    rw [List.filterMap_cons_some hd, List.reverse_cons] at hcomponents
    rw [hcomponents, List.getLast?_concat] at hc
    obtain rfl := Option.some.inj hc
    exact ⟨last, others, rfl, hcomponents⟩

/-- **The parent of a file has its components but the last.** -/
theorem exists_parent? {p : Path} (hp : p.isAbsolute = true) {name : List UInt8}
    (hname : p.fileName? = some name) :
    ∃ dir, p.parent? = some dir ∧ dir.isAbsolute = true ∧
      p.components = dir.components ++ [.normal name] := by
  obtain ⟨bs, rfl⟩ := exists_of_isAbsolute hp
  have hlast : (⟨slash :: bs⟩ : Path).components.getLast? = some (.normal name) := by
    rw [fileName?] at hname
    split at hname
    · rename_i n hn
      rw [hn, Option.some.inj hname]
    · cases hname
  have hinner : ((cut bs).filterMap innerComponent?).getLast? = some (.normal name) := by
    rw [components_slash, List.getLast?_cons] at hlast
    cases hcs : ((cut bs).filterMap innerComponent?).getLast? with
    | none => simp [hcs] at hlast
    | some c => simpa [hcs] using hlast
  obtain ⟨last, others, hdrop, hcomponents⟩ := exists_of_getLast? hinner
  have hsegments : trimEnd (⟨slash :: bs⟩ : Path).segments.reverse = last :: (others ++ [[]]) := by
    rw [segments, cut_slash, List.reverse_cons, trimEnd_concat, hdrop, List.cons_append]
  let above := (others.dropWhile fun s => (innerComponent? s).isNone).reverse
  have hslash : ∀ s ∈ above, slash ∉ s := by
    intro s hs
    have hothers : s ∈ others := List.dropWhile_subset _ (List.mem_reverse.mp hs)
    have hcut : s ∈ (cut bs).reverse.dropWhile fun s => (innerComponent? s).isNone :=
      hdrop ▸ List.mem_cons_of_mem last hothers
    exact slash_not_mem_of_mem_cut (List.mem_reverse.mp (List.dropWhile_subset _ hcut))
  refine ⟨⟨slash :: glue above⟩, ?_, rfl, ?_⟩
  · rw [parent?, hlast]
    simp only [hsegments, trimEnd_concat, List.reverse_append, List.reverse_singleton,
      List.singleton_append]
    show (if [] :: above = [[]] then some (⟨[slash]⟩ : Path) else some ⟨glue ([] :: above)⟩) = _
    cases above with
    | nil => rfl
    | cons s rest => simp [glue, List.intercalate_cons_cons]
  · rw [components_slash, components_root_glue hslash, hcomponents, List.cons_append]
    congr 2
    rw [List.filterMap_reverse, filterMap_dropWhile]

theorem mem_cut_of_mem_components {p : Path} {n : List UInt8} (hn : .normal n ∈ p.components) :
    n ∈ p.segments ∧ innerComponent? n = some (.normal n) := by
  have hinner : ∀ s, innerComponent? s = some (.normal n) → s = n := by
    intro s hs
    rw [innerComponent?] at hs
    split at hs
    · cases hs
    · split at hs
      · cases hs
      · exact Component.normal.inj (Option.some.inj hs)
  obtain ⟨first, rest, hsegments⟩ := exists_segments p
  rw [components_eq hsegments, List.mem_append, List.mem_filterMap] at hn
  rw [hsegments]
  rcases hn with hn | ⟨s, hs, hn⟩
  · have hfirst : innerComponent? first = some (.normal n) := by
      rw [front] at hn
      split at hn
      · simp at hn
      · split at hn
        · simp at hn
        · simpa using hn
    obtain rfl := hinner first hfirst
    exact ⟨List.mem_cons_self, hfirst⟩
  · obtain rfl := hinner s hn
    exact ⟨List.mem_cons_of_mem _ hs, hn⟩

end Path

/-! ## Names with slashes between -/

/-- The name of a component that has one. -/
def Component.name? : Component → Option (List UInt8)
  | .normal n => some n
  | _ => none

namespace Path

/-- A name that may stand between slashes and is a text. -/
structure IsName (n : List UInt8) : Prop where
  component : innerComponent? n = some (.normal n)
  slash_not_mem : slash ∉ n
  exists_text : ∃ t, n = Text.Utf8.ofString t

theorem isName_of_mem {s : String} {n : List UInt8} (hn : .normal n ∈ (ofString s).components) :
    IsName n := by
  obtain ⟨hcut, hcomponent⟩ := mem_cut_of_mem_components hn
  exact ⟨hcomponent, slash_not_mem_of_mem_cut hcut, exists_of_mem_cut hcut⟩

theorem glue_names {ns : List (List UInt8)} (hns : ∀ n ∈ ns, IsName n) :
    (⟨glue ns⟩ : Path).isAbsolute = false ∧
      (⟨glue ns⟩ : Path).segments.filterMap innerComponent? = ns.map .normal ∧
      (⟨glue ns⟩ : Path).components = ns.map .normal := by
  cases ns with
  | nil => exact ⟨rfl, rfl, rfl⟩
  | cons n rest =>
    have hsegments : (⟨glue (n :: rest)⟩ : Path).segments = n :: rest :=
      cut_glue (fun s hs => (hns s hs).slash_not_mem) (List.cons_ne_nil n rest)
    obtain ⟨hn, hrest⟩ := List.forall_mem_cons.mp hns
    have hrelative : (⟨glue (n :: rest)⟩ : Path).isAbsolute = false := by
      rw [← Bool.not_eq_true]
      intro habsolute
      obtain ⟨bs, hbs⟩ := exists_of_isAbsolute habsolute
      rw [hbs, segments, cut_slash] at hsegments
      obtain ⟨rfl, -⟩ := List.cons.inj hsegments
      cases hn.component
    have hinner : rest.filterMap innerComponent? = rest.map .normal := by
      rw [← List.filterMap_eq_map]
      exact List.filterMap_congr fun s hs => (hrest s hs).component
    have hdot : n ≠ dot := by
      rintro rfl
      cases hn.component
    refine ⟨hrelative, ?_, ?_⟩
    · rw [hsegments, List.filterMap_cons_some hn.component, hinner, List.map_cons]
    · rw [components_eq hsegments, hrelative, hinner, front, if_neg Bool.false_ne_true, if_neg hdot,
        hn.component]
      rfl

variable {cs : List Component}

theorem isName_of_mem_names (hcs : ∀ n, .normal n ∈ cs → IsName n) :
    ∀ n ∈ cs.filterMap Component.name?, IsName n := by
  intro n hn
  obtain ⟨c, hc, hname⟩ := List.mem_filterMap.mp hn
  cases c with
  | normal m => exact Option.some.inj hname ▸ hcs m hc
  | root | current | parent => cases hname

theorem ofString_slashed (hcs : ∀ n, .normal n ∈ cs → IsName n) :
    ofString (slashed cs) = ⟨glue (cs.filterMap Component.name?)⟩ := by
  have hslashed : slashed cs =
      "/".intercalate ((cs.filterMap Component.name?).map Text.Utf8.toStringLossy) := by
    rw [slashed, List.map_filterMap]
    congr 1
    refine List.filterMap_congr fun c _ => ?_
    cases c <;> rfl
  have hread : ∀ n ∈ cs.filterMap Component.name?,
      Text.Utf8.encode (Text.Utf8.toStringLossy n).toList = id n := by
    intro n hn
    obtain ⟨t, rfl⟩ := (isName_of_mem_names hcs n hn).exists_text
    exact congrArg Text.Utf8.ofString (Text.Utf8.toStringLossy_ofString t)
  have hslash : "/".toList = ['/'] := rfl
  have hencode : Text.Utf8.encodeChar '/' = [slash] := by decide
  rw [ofString, Text.Utf8.ofString, hslashed, String.toList_intercalate, hslash,
    Text.Utf8.encode_intercalate, hencode, List.map_map, List.map_map, glue]
  congr 2
  exact (List.map_congr_left hread).trans (List.map_id _)

/-- **Names with slashes between are the components of a relative path.** -/
theorem components_slashed (hcs : ∀ n, .normal n ∈ cs → IsName n) :
    (ofString (slashed cs)).components = (cs.filterMap Component.name?).map .normal := by
  rw [ofString_slashed hcs]
  exact (glue_names (isName_of_mem_names hcs)).2.2

theorem components_join_slashed (hcs : ∀ n, .normal n ∈ cs → IsName n) {p : Path}
    (hp : p.bytes ≠ []) :
    (p.join (ofString (slashed cs))).components =
      p.components ++ (ofString (slashed cs)).components := by
  obtain ⟨hrelative, hsegments, hcomponents⟩ := glue_names (isName_of_mem_names hcs)
  rw [ofString_slashed hcs, hcomponents]
  obtain ⟨first, rest, hjoin, hfront, habsolute⟩ := segments_join_of_relative hrelative hp
  rw [components_eq hjoin, habsolute, List.filterMap_append, hsegments, ← List.append_assoc, ← hfront]

end Path

end WorkflowLint

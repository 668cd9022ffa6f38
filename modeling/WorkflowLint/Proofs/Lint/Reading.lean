import WorkflowLint.Lint.Finding
import WorkflowLint.Proofs.Json.Fields
/-!
# What a finding is read as

An object is read as a finding field by field, in the order of keys. The first field that does not
fit is reported (`Finding.misfit?`); when all fit, the finding has the values of the fields that are
there and the usual ones for the rest (`Finding.ofFields`), and fields of other names do not matter.
-/

namespace WorkflowLint.Finding

open Json (Mismatch Reader describe Ascending)

def textKeys : List String := ["message", "filepath", "kind", "snippet"]

def numberKeys : List String := ["line", "column", "end_column"]

/-- The number fits 64 bits with a sign. -/
def IsShort (n : Int) : Prop := -0x8000000000000000 ≤ n ∧ n ≤ 0x7FFFFFFFFFFFFFFF

instance (n : Int) : Decidable (IsShort n) := inferInstanceAs (Decidable (_ ∧ _))

/-- Why a value is no text. -/
def textMisfit? : Json → Option Mismatch
  | .string _ => none
  | v => some (.kind (describe v) "a string")

/-- Why a value is no number. -/
def numberMisfit? : Json → Option Mismatch
  | .number (.int n) => if IsShort n then none else some (.range s!"integer `{n}`" "i64")
  | v => some (.kind (describe v) "i64")

/-- In which way a field does not fit. -/
def misfit? (field : String × Json) : Option Mismatch :=
  if field.1 ∈ textKeys then textMisfit? field.2
  else if field.1 ∈ numberKeys then numberMisfit? field.2
  else none

def textOf (v : Json) : String := v.asString?.getD ""

def numberOf : Json → Int
  | .number (.int n) => n
  | _ => 0

/-- The text of a field, empty when it is not there. -/
def textAt (fs : List (String × Json)) (key : String) : String := ((fs.lookup key).map textOf).getD ""

/-- The number of a field, zero when it is not there. -/
def numberAt (fs : List (String × Json)) (key : String) : Int :=
  ((fs.lookup key).map numberOf).getD 0

/-- The finding with the values of the given fields. -/
def ofFields (fs : List (String × Json)) : Finding where
  message := textAt fs "message"
  filepath := textAt fs "filepath"
  line := numberAt fs "line"
  column := numberAt fs "column"
  endColumn := numberAt fs "end_column"
  kind := textAt fs "kind"
  snippet := textAt fs "snippet"

variable {fs done : List (String × Json)} {seen : List String} {key : String} {v : Json}

/-! ## One field -/

theorem string_eq (v : Json) : Reader.string v =
    match textMisfit? v with
    | some m => .error m
    | none => .ok (textOf v) := by
  cases v <;> rfl

theorem int64_eq (v : Json) : Reader.int64 v =
    match numberMisfit? v with
    | some m => .error m
    | none => .ok (numberOf v) := by
  cases v with
  | number n =>
    cases n with
    | int n =>
      change (if IsShort n then _ else _) = _
      rw [numberMisfit?]
      by_cases h : IsShort n
      · rw [if_pos h, if_pos h]
        rfl
      · rw [if_neg h, if_neg h]
    | float x => rfl
  | _ => rfl

/-! ## Field by field -/

theorem textAt_snoc (hdone : done.lookup key = none) (k : String) :
    textAt (done ++ [(key, v)]) k = if k = key then textOf v else textAt done k := by
  rw [textAt, List.lookup_append, Json.lookup_cons]
  split_ifs with hk
  · rw [hk, hdone]
    rfl
  · rw [List.lookup_nil, Option.or_none, textAt]

theorem numberAt_snoc (hdone : done.lookup key = none) (k : String) :
    numberAt (done ++ [(key, v)]) k = if k = key then numberOf v else numberAt done k := by
  rw [numberAt, List.lookup_append, Json.lookup_cons]
  split_ifs with hk
  · rw [hk, hdone]
    rfl
  · rw [List.lookup_nil, Option.or_none, numberAt]

theorem visit_of_field {f : Json.Field Finding} {g : Finding} (hfield : record.field? key = some f)
    (hname : f.name = key) (hseen : key ∉ seen) :
    record.visit (seen, g) (key, v) = (f.set v g).map (key :: seen, ·) := by
  have hnew : seen.contains key = false := by simpa using hseen
  rw [Json.Record.visit]
  dsimp only
  rw [hfield]
  dsimp only
  rw [hname, hnew]
  rfl

theorem visit_text (put : String → Finding → Finding) {f : Json.Field Finding}
    (hkey : key ∈ textKeys) (hfield : record.field? key = some f) (hname : f.name = key)
    (hset : ∀ g, f.set v g = (Reader.string v).map (put · g)) (hseen : key ∉ seen)
    (hput : ofFields (done ++ [(key, v)]) = put (textOf v) (ofFields done)) :
    record.visit (seen, ofFields done) (key, v) =
      match misfit? (key, v) with
      | some m => .error m
      | none => .ok (key :: seen, ofFields (done ++ [(key, v)])) := by
  rw [visit_of_field hfield hname hseen, hset, hput, misfit?, if_pos hkey, string_eq]
  cases textMisfit? v <;> rfl

theorem visit_number (put : Int → Finding → Finding) {f : Json.Field Finding}
    (hkey : key ∈ numberKeys) (htext : key ∉ textKeys) (hfield : record.field? key = some f)
    (hname : f.name = key) (hset : ∀ g, f.set v g = (Reader.int64 v).map (put · g))
    (hseen : key ∉ seen)
    (hput : ofFields (done ++ [(key, v)]) = put (numberOf v) (ofFields done)) :
    record.visit (seen, ofFields done) (key, v) =
      match misfit? (key, v) with
      | some m => .error m
      | none => .ok (key :: seen, ofFields (done ++ [(key, v)])) := by
  rw [visit_of_field hfield hname hseen, hset, hput, misfit?, if_neg htext, if_pos hkey, int64_eq]
  cases numberMisfit? v <;> rfl

theorem visit_known (hkey : key ∈ textKeys ++ numberKeys) (hseen : key ∉ seen)
    (hdone : done.lookup key = none) :
    record.visit (seen, ofFields done) (key, v) =
      match misfit? (key, v) with
      | some m => .error m
      | none => .ok (key :: seen, ofFields (done ++ [(key, v)])) := by
  have htext := textAt_snoc (v := v) hdone
  have hnumber := numberAt_snoc (v := v) hdone
  simp only [textKeys, numberKeys, List.cons_append, List.nil_append, List.mem_cons,
    List.not_mem_nil, or_false] at hkey
  rcases hkey with rfl | rfl | rfl | rfl | rfl | rfl | rfl
  · exact visit_text (fun s f => { f with message := s }) (by decide) rfl rfl (fun _ => rfl) hseen
      (by simp [ofFields, htext, hnumber])
  · exact visit_text (fun s f => { f with filepath := s }) (by decide) rfl rfl (fun _ => rfl) hseen
      (by simp [ofFields, htext, hnumber])
  · exact visit_text (fun s f => { f with kind := s }) (by decide) rfl rfl (fun _ => rfl) hseen
      (by simp [ofFields, htext, hnumber])
  · exact visit_text (fun s f => { f with snippet := s }) (by decide) rfl rfl (fun _ => rfl) hseen
      (by simp [ofFields, htext, hnumber])
  · exact visit_number (fun n f => { f with line := n }) (by decide) (by decide) rfl rfl
      (fun _ => rfl) hseen (by simp [ofFields, htext, hnumber])
  · exact visit_number (fun n f => { f with column := n }) (by decide) (by decide) rfl rfl
      (fun _ => rfl) hseen (by simp [ofFields, htext, hnumber])
  · exact visit_number (fun n f => { f with endColumn := n }) (by decide) (by decide) rfl rfl
      (fun _ => rfl) hseen (by simp [ofFields, htext, hnumber])

theorem visit_unknown (hkey : key ∉ textKeys ++ numberKeys) (hdone : done.lookup key = none) :
    record.visit (seen, ofFields done) (key, v) = .ok (seen, ofFields (done ++ [(key, v)])) := by
  have htext := textAt_snoc (v := v) hdone
  have hnumber := numberAt_snoc (v := v) hdone
  have hne : ∀ k ∈ textKeys ++ numberKeys, k ≠ key := fun k hk heq => hkey (heq ▸ hk)
  simp only [textKeys, numberKeys, List.cons_append, List.nil_append, List.forall_mem_cons] at hne
  obtain ⟨h1, h2, h3, h4, h5, h6, h7, -⟩ := hne
  have hfield : record.field? key = none := by
    simp [Json.Record.field?, record, h1, h2, h3, h4, h5, h6, h7]
  have hsame : ofFields (done ++ [(key, v)]) = ofFields done := by
    simp [ofFields, htext, hnumber, h1, h2, h3, h4, h5, h6, h7]
  rw [Json.Record.visit, hfield, hsame]

theorem visit_eq (hseen : key ∉ seen) (hdone : done.lookup key = none) :
    record.visit (seen, ofFields done) (key, v) =
      match misfit? (key, v) with
      | some m => .error m
      | none => .ok (if key ∈ textKeys ++ numberKeys then key :: seen else seen,
          ofFields (done ++ [(key, v)])) := by
  by_cases hkey : key ∈ textKeys ++ numberKeys
  · rw [visit_known hkey hseen hdone, if_pos hkey]
  · obtain ⟨htext, hnumber⟩ := not_or.mp fun h => hkey (List.mem_append.mpr h)
    rw [visit_unknown hkey hdone, if_neg hkey, misfit?, if_neg htext, if_neg hnumber]

theorem lookup_eq_none_of_lt (h : ∀ f ∈ done, f.1 < key) : done.lookup key = none := by
  rw [List.lookup_eq_none_iff]
  intro f hf
  have hne : key ≠ f.1 := fun heq => String.lt_irrefl key (heq.symm ▸ h f hf)
  exact bne_iff_ne.mpr hne

/-- The first field that does not fit is reported, and else all that are there have been read. -/
theorem foldlM_visit (hkeys : Ascending (done ++ fs)) (hseen : seen ⊆ done.map Prod.fst) :
    match fs.findSome? misfit? with
    | some m => fs.foldlM record.visit (seen, ofFields done) = .error m
    | none => ∃ seen',
        fs.foldlM record.visit (seen, ofFields done) = .ok (seen', ofFields (done ++ fs)) := by
  induction fs generalizing done seen with
  | nil => exact ⟨seen, by rw [List.append_nil]; rfl⟩
  | cons f fs ih =>
    obtain ⟨key, v⟩ := f
    obtain ⟨-, -, hcross⟩ := List.pairwise_append.mp hkeys
    have hlt : ∀ g ∈ done, g.1 < key := fun g hg => hcross g hg _ List.mem_cons_self
    have hnew : key ∉ seen := by
      intro hmem
      obtain ⟨g, hg, heq⟩ := List.mem_map.mp (hseen hmem)
      exact String.lt_irrefl key (heq ▸ hlt g hg)
    rw [List.findSome?_cons, List.foldlM_cons, visit_eq hnew (lookup_eq_none_of_lt hlt)]
    cases hmisfit : misfit? (key, v) with
    | some m => rfl
    | none =>
      have hnext := @ih (done ++ [(key, v)])
        (if key ∈ textKeys ++ numberKeys then key :: seen else seen) (by rwa [List.append_assoc]) ?_
      · rwa [List.append_assoc] at hnext
      · rw [List.map_append]
        split_ifs
        · exact List.cons_subset.mpr
            ⟨List.mem_append_right _ List.mem_cons_self, List.subset_append_of_subset_left _ hseen⟩
        · exact List.subset_append_of_subset_left _ hseen

/-- **What an object is read as.** -/
theorem read_fields (hkeys : Ascending fs) : read (.fields fs) =
    match fs.findSome? misfit? with
    | some m => .error m
    | none => .ok (ofFields fs) := by
  have hfold := @foldlM_visit fs [] [] hkeys (List.nil_subset _)
  change (fs.foldlM record.visit ([], ofFields [])).bind _ = _
  cases hmisfit : fs.findSome? misfit? with
  | some m =>
    rw [hmisfit] at hfold
    dsimp only at hfold
    rw [hfold]
    rfl
  | none =>
    rw [hmisfit] at hfold
    obtain ⟨seen, hfold⟩ := hfold
    rw [hfold, List.nil_append]
    rfl

theorem read_eq_ok_iff (hkeys : Ascending fs) {f : Finding} :
    read (.fields fs) = .ok f ↔ (∀ g ∈ fs, misfit? g = none) ∧ f = ofFields fs := by
  rw [read_fields hkeys, ← List.findSome?_eq_none_iff]
  cases fs.findSome? misfit? with
  | some m => exact iff_of_false nofun fun h => nomatch h.1
  | none => exact ⟨fun h => ⟨rfl, (Except.ok.inj h).symm⟩, fun h => congrArg Except.ok h.2.symm⟩

theorem read_eq_error_iff (hkeys : Ascending fs) {m : Mismatch} :
    read (.fields fs) = .error m ↔ ∃ before g after, fs = before ++ g :: after ∧
      misfit? g = some m ∧ ∀ g ∈ before, misfit? g = none := by
  rw [read_fields hkeys, ← List.findSome?_eq_some_iff]
  cases fs.findSome? misfit? with
  | some m' => exact ⟨fun h => congrArg some (Except.error.inj h), fun h => congrArg _ (Option.some.inj h)⟩
  | none => exact iff_of_false nofun nofun

/-! ## Findings as they are written -/

/-- A finding as the program holds it: its numbers have 64 bits with a sign. -/
structure Holds (f : Finding) : Prop where
  line : IsShort f.line
  column : IsShort f.column
  endColumn : IsShort f.endColumn

def written (f : Finding) : List (String × Json) :=
  [("message", .string f.message), ("filepath", .string f.filepath), ("line", Json.int f.line),
    ("column", Json.int f.column), ("end_column", Json.int f.endColumn), ("kind", .string f.kind),
    ("snippet", .string f.snippet)]

variable {f : Finding}

theorem Holds.misfit?_eq_none (h : f.Holds) {g : String × Json} (hg : g ∈ f.written) :
    misfit? g = none := by
  simp only [written, List.mem_cons, List.not_mem_nil, or_false] at hg
  rcases hg with rfl | rfl | rfl | rfl | rfl | rfl | rfl
  · rfl
  · rfl
  · exact if_pos h.line
  · exact if_pos h.column
  · exact if_pos h.endColumn
  · rfl
  · rfl

theorem Holds.read_object (h : f.Holds) (hperm : fs.Perm f.written) :
    read (Json.object fs) = .ok f := by
  refine (read_eq_ok_iff (Json.ascending_sortFields fs)).mpr ⟨fun g hg => ?_, ?_⟩
  · exact h.misfit?_eq_none (hperm.mem_iff.mp (Json.mem_sortFields hg))
  · have hnodup : (fs.reverse.map Prod.fst).Nodup := by
      have hkeys : (f.written.map Prod.fst).Nodup := by
        simp [written]
      exact ((((List.reverse_perm fs).trans hperm).map Prod.fst).nodup_iff).mpr hkeys
    have hlookup {key : String} {v : Json} (hmem : (key, v) ∈ f.written) :
        (Json.sortFields fs).lookup key = some v := by
      have hget := Json.get?_object fs key
      rw [Json.object, Json.get?] at hget
      rw [hget]
      exact Json.lookup_of_mem hnodup (List.mem_reverse.mpr (hperm.mem_iff.mpr hmem))
    have htext (key s : String) (hmem : (key, .string s) ∈ f.written) :
        textAt (Json.sortFields fs) key = s := by
      rw [textAt, hlookup hmem]
      rfl
    have hnumber (key : String) (n : Int) (hmem : (key, Json.int n) ∈ f.written) :
        numberAt (Json.sortFields fs) key = n := by
      rw [numberAt, hlookup hmem]
      rfl
    rw [ofFields, htext "message" f.message (by simp [written]),
      htext "filepath" f.filepath (by simp [written]), hnumber "line" f.line (by simp [written]),
      hnumber "column" f.column (by simp [written]),
      hnumber "end_column" f.endColumn (by simp [written]),
      htext "kind" f.kind (by simp [written]), htext "snippet" f.snippet (by simp [written])]

end WorkflowLint.Finding

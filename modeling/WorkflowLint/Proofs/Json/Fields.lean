import WorkflowLint.Json.Basic
import Mathlib.Data.List.Basic
/-!
# Fields of objects

The fields of `Json.object` have ascending keys, each once, whatever they were built from. Of two
fields with one key the later counts.
-/

namespace WorkflowLint.Json

variable {α : Type} {fs : List (String × α)} {key : String} {v : α}

/-- The keys ascend, so that each is there once. -/
def Ascending (fs : List (String × α)) : Prop := fs.Pairwise fun f g => f.1 < g.1

theorem lookup_cons (key k : String) (v : α) (fs : List (String × α)) :
    ((key, v) :: fs).lookup k = if k = key then some v else fs.lookup k := by
  by_cases hk : k = key
  · rw [List.lookup_cons, hk, beq_self_eq_true, if_pos rfl]
  · rw [List.lookup_cons, beq_false_of_ne hk, if_neg hk]

theorem lookup_insertField (key k : String) (v : α) (fs : List (String × α)) :
    (insertField key v fs).lookup k = if k = key then some v else fs.lookup k := by
  induction fs with
  | nil => exact lookup_cons key k v []
  | cons f fs ih =>
    obtain ⟨j, w⟩ := f
    rw [insertField]
    by_cases hlt : key < j
    · rw [if_pos hlt, lookup_cons]
    · by_cases hj : key = j
      · rw [if_neg hlt, if_pos hj, lookup_cons, lookup_cons, ← hj]
        split_ifs <;> rfl
      · rw [if_neg hlt, if_neg hj, lookup_cons, lookup_cons, ih]
        by_cases hk : k = key
        · rw [if_pos hk, if_pos hk, if_neg (hk ▸ hj)]
        · rw [if_neg hk, if_neg hk]

@[simp] theorem get?_object (fs : List (String × Json)) (k : String) :
    (object fs).get? k = fs.reverse.lookup k := by
  suffices hfold : ∀ acc : List (String × Json),
      (fs.foldl (fun acc f => insertField f.1 f.2 acc) acc).lookup k =
        (fs.reverse.lookup k).or (acc.lookup k) by
    have h := hfold []
    rwa [List.lookup_nil, Option.or_none] at h
  intro acc
  induction fs generalizing acc with
  | nil => rfl
  | cons f fs ih =>
    rw [List.foldl_cons, ih, lookup_insertField, List.reverse_cons, List.lookup_append,
      Option.or_assoc, lookup_cons]
    split_ifs <;> rfl

/-! ## Order -/

theorem mem_insertField {f : String × α} (h : f ∈ insertField key v fs) :
    f = (key, v) ∨ f ∈ fs := by
  induction fs with
  | nil => exact .inl (List.mem_singleton.mp h)
  | cons g fs ih =>
    rw [insertField] at h
    split_ifs at h
    · exact List.mem_cons.mp h
    · exact (List.mem_cons.mp h).imp_right (List.mem_cons_of_mem _)
    · rcases List.mem_cons.mp h with rfl | h
      · exact .inr List.mem_cons_self
      · exact (ih h).imp_right (List.mem_cons_of_mem _)

theorem ascending_insertField (h : Ascending fs) : Ascending (insertField key v fs) := by
  induction fs with
  | nil => exact List.pairwise_singleton _ _
  | cons g fs ih =>
    obtain ⟨k, w⟩ := g
    obtain ⟨hhead, htail⟩ := List.pairwise_cons.mp h
    rw [insertField]
    split_ifs with hlt heq
    · refine List.pairwise_cons.mpr ⟨List.forall_mem_cons.mpr ⟨hlt, fun f hf => ?_⟩, h⟩
      exact String.lt_trans hlt (hhead f hf)
    · exact List.pairwise_cons.mpr ⟨fun f hf => heq ▸ hhead f hf, htail⟩
    · refine List.pairwise_cons.mpr ⟨fun f hf => ?_, ih htail⟩
      rcases mem_insertField hf with rfl | hf
      · exact Std.lt_of_le_of_ne (String.not_lt.mp hlt) (Ne.symm heq)
      · exact hhead f hf

theorem mem_foldl_insertField {f : String × α} {acc : List (String × α)}
    (h : f ∈ fs.foldl (fun acc g => insertField g.1 g.2 acc) acc) : f ∈ fs ∨ f ∈ acc := by
  induction fs generalizing acc with
  | nil => exact .inr h
  | cons g fs ih =>
    rcases ih h with h | h
    · exact .inl (List.mem_cons_of_mem _ h)
    · rcases mem_insertField h with rfl | h
      · exact .inl List.mem_cons_self
      · exact .inr h

theorem mem_sortFields {f : String × α} (h : f ∈ sortFields fs) : f ∈ fs :=
  (mem_foldl_insertField h).resolve_right List.not_mem_nil

theorem ascending_sortFields (fs : List (String × α)) : Ascending (sortFields fs) := by
  suffices hfold : ∀ acc : List (String × α), Ascending acc →
      Ascending (fs.foldl (fun acc g => insertField g.1 g.2 acc) acc) from hfold [] .nil
  induction fs with
  | nil => exact fun acc hacc => hacc
  | cons g fs ih => exact fun acc hacc => ih _ (ascending_insertField hacc)

theorem lookup_of_mem (h : (fs.map Prod.fst).Nodup) (hmem : (key, v) ∈ fs) :
    fs.lookup key = some v := by
  induction fs with
  | nil => cases hmem
  | cons g fs ih =>
    obtain ⟨k, w⟩ := g
    obtain ⟨hhead, htail⟩ := List.nodup_cons.mp h
    rw [lookup_cons]
    rcases List.mem_cons.mp hmem with heq | hmem
    · obtain ⟨rfl, rfl⟩ := Prod.mk.inj heq
      exact if_pos rfl
    · have hkey : key ∈ fs.map Prod.fst := List.mem_map_of_mem hmem
      rw [if_neg (fun heq : key = k => hhead (heq ▸ hkey)), ih htail hmem]

end WorkflowLint.Json

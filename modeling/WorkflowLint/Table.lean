/-!
# Tables

A finite map as a list of keys and values, each key once. Each operation is described by what
`get?` finds after it.
-/

namespace WorkflowLint

/-- A finite map. -/
structure Table (κ α : Type) where
  entries : List (κ × α) := []
  deriving DecidableEq, Inhabited

namespace Table

variable {κ α β : Type} [DecidableEq κ]

def get? (t : Table κ α) (k : κ) : Option α :=
  (t.entries.find? fun e => e.1 = k).map (·.2)

def erase (t : Table κ α) (k : κ) : Table κ α :=
  ⟨t.entries.filter fun e => e.1 ≠ k⟩

/-- The table with a value under a key, in place of any other. -/
def insert (t : Table κ α) (k : κ) (a : α) : Table κ α :=
  ⟨(t.erase k).entries ++ [(k, a)]⟩

def modify (t : Table κ α) (k : κ) (f : α → α) : Table κ α :=
  ⟨t.entries.map fun e => if e.1 = k then (e.1, f e.2) else e⟩

def contains (t : Table κ α) (k : κ) : Bool :=
  (t.get? k).isSome

def keys (t : Table κ α) : List κ :=
  t.entries.map (·.1)

def values (t : Table κ α) : List α :=
  t.entries.map (·.2)

def isEmpty (t : Table κ α) : Bool :=
  t.entries.isEmpty

@[simp] theorem get?_empty (k : κ) : ({} : Table κ α).get? k = none := rfl

@[simp] theorem get?_erase (t : Table κ α) (k j : κ) :
    (t.erase k).get? j = if j = k then none else t.get? j := by
  obtain ⟨es⟩ := t
  simp only [get?, erase]
  induction es with
  | nil => simp
  | cons e es ih => by_cases h : e.1 = k <;> by_cases hj : e.1 = j <;> grind

@[simp] theorem get?_insert (t : Table κ α) (k j : κ) (a : α) :
    (t.insert k a).get? j = if j = k then some a else t.get? j := by
  have h := get?_erase t k j
  simp only [get?] at h
  simp only [insert, get?, List.find?_append, Option.map_or, h]
  by_cases hj : j = k
  · subst hj; simp
  · have : k ≠ j := fun e => hj e.symm
    simp [hj, this]

@[simp] theorem get?_modify (t : Table κ α) (k j : κ) (f : α → α) :
    (t.modify k f).get? j = if j = k then (t.get? k).map f else t.get? j := by
  obtain ⟨es⟩ := t
  simp only [get?, modify]
  induction es with
  | nil => simp
  | cons e es ih => by_cases h : e.1 = k <;> by_cases hj : e.1 = j <;> grind

@[simp] theorem modify_modify (t : Table κ α) (k : κ) (f g : α → α) :
    (t.modify k f).modify k g = t.modify k fun a => g (f a) := by
  simp only [modify, List.map_map]
  congr 1
  refine List.map_congr_left fun e _ => ?_
  by_cases he : e.1 = k <;> simp [he]

/-! ## Each key once -/

theorem mem_entries_of_get? {t : Table κ α} {k : κ} {a : α} (h : t.get? k = some a) :
    (k, a) ∈ t.entries := by
  obtain ⟨e, he, rfl⟩ := Option.map_eq_some_iff.mp h
  have hk : e.1 = k := by simpa using List.find?_some he
  exact hk ▸ List.mem_of_find?_eq_some he

theorem mem_keys_iff {t : Table κ α} {k : κ} : k ∈ t.keys ↔ t.get? k ≠ none := by
  rw [Ne, get?, Option.map_eq_none_iff, List.find?_eq_none, keys, List.mem_map]
  simp

theorem get?_of_mem_entries {t : Table κ α} (ht : t.keys.Nodup) {k : κ} {a : α}
    (h : (k, a) ∈ t.entries) : t.get? k = some a := by
  obtain ⟨es⟩ := t
  simp only [get?]
  induction es with
  | nil => cases h
  | cons e es ih =>
    obtain ⟨hne, hes⟩ := List.nodup_cons.mp ht
    rcases List.mem_cons.mp h with rfl | h
    · simp
    · have he : e.1 ≠ k := fun heq => hne (List.mem_map.mpr ⟨(k, a), h, heq.symm⟩)
      simpa [he] using ih hes h

theorem nodup_keys_erase {t : Table κ α} (ht : t.keys.Nodup) (k : κ) : (t.erase k).keys.Nodup :=
  ht.sublist (List.filter_sublist.map _)

theorem nodup_keys_insert {t : Table κ α} (ht : t.keys.Nodup) (k : κ) (a : α) :
    (t.insert k a).keys.Nodup := by
  have hnew : k ∉ (t.erase k).keys := by simp [erase, keys]
  have happend : (t.insert k a).keys = (t.erase k).keys ++ [k] := by simp [insert, keys]
  rw [happend, List.nodup_append]
  refine ⟨nodup_keys_erase ht k, by simp, fun j hj i hi => ?_⟩
  rintro rfl
  exact hnew (List.mem_singleton.mp hi ▸ hj)

@[simp] theorem keys_modify (t : Table κ α) (k : κ) (f : α → α) : (t.modify k f).keys = t.keys := by
  simp only [keys, modify, List.map_map]
  refine List.map_congr_left fun e _ => ?_
  by_cases he : e.1 = k <;> simp [he]

theorem flatMap_entries {t : Table κ α} (ht : t.keys.Nodup) (k : κ) (f : α → List β) :
    (t.entries.flatMap fun e => if e.1 = k then f e.2 else []) = (t.get? k).elim [] f := by
  obtain ⟨es⟩ := t
  simp only [get?]
  induction es with
  | nil => rfl
  | cons e es ih =>
    obtain ⟨hne, hes⟩ := List.nodup_cons.mp ht
    by_cases he : e.1 = k
    · -- no later entry has the key
      have hrest : (es.flatMap fun e => if e.1 = k then f e.2 else []) = [] := by
        refine List.flatMap_eq_nil_iff.mpr fun e' he' => if_neg fun heq => hne ?_
        exact List.mem_map.mpr ⟨e', he', heq.trans he.symm⟩
      simp [he, hrest]
    · simpa [he] using ih hes

end Table

end WorkflowLint

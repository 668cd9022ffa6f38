import Mathlib.Data.List.Basic
/-!
# Lists that are put together in two ways

A list that grew at its end and is split at an element is split in the old part or in the new one.
Logs, histories and queues are all read this way.
-/

namespace WorkflowLint

variable {α : Type} {l es pre post : List α} {a e : α}

theorem eq_append_of_append (h : l ++ es = pre ++ e :: post) :
    (∃ post', l = pre ++ e :: post' ∧ post = post' ++ es) ∨
      ∃ new, pre = l ++ new ∧ es = new ++ e :: post := by
  rcases List.append_eq_append_iff.mp h with ⟨new, rfl, hes⟩ | ⟨old, rfl, hold⟩
  · exact .inr ⟨new, rfl, hes⟩
  · cases old with
    | nil => exact .inr ⟨[], by simp, by simpa using hold.symm⟩
    | cons x old =>
      obtain ⟨rfl, rfl⟩ := List.cons.inj hold
      exact .inl ⟨old, rfl, rfl⟩

theorem eq_append_of_concat (h : l ++ [a] = pre ++ e :: post) :
    (∃ post', l = pre ++ e :: post' ∧ post = post' ++ [a]) ∨ l = pre ∧ a = e ∧ post = [] := by
  obtain hold | ⟨new, rfl, hnew⟩ := eq_append_of_append h
  · exact .inl hold
  · obtain ⟨rfl, hlast⟩ | ⟨-, hnone⟩ := List.singleton_eq_append_iff.mp hnew
    · obtain ⟨rfl, rfl⟩ := List.cons.inj hlast
      exact .inr ⟨(List.append_nil l).symm, rfl, rfl⟩
    · cases hnone

/-- What holds at every place of a list can be checked place by place. -/
theorem forall_split_iff {P : List α → α → Prop} :
    (∀ pre a post, l = pre ++ a :: post → P pre a) ↔
      ∀ m, ∀ h : m < l.length, P (l.take m) l[m] := by
  constructor
  · intro h m hm
    refine h (l.take m) l[m] (l.drop (m + 1)) ?_
    rw [← List.drop_eq_getElem_cons hm, List.take_append_drop]
  · rintro h pre a post rfl
    have hplace := h pre.length (by simp)
    simpa using hplace

end WorkflowLint

import WorkflowLint.Text.Lines
import WorkflowLint.Text.Utf8
/-!
# Sizes of texts

A text takes at least one byte for each character, and cutting it into lines does not make it
larger: there is at most one line more than bytes, and no line is longer than the text.
-/

namespace WorkflowLint.Text

variable {cs ds line : List Char} {c : Char}

def bytes (cs : List Char) : Nat := (Utf8.encode cs).length

@[simp] theorem bytes_nil : bytes [] = 0 := rfl

theorem bytes_cons : bytes (c :: cs) = (Utf8.encodeChar c).length + bytes cs := by
  rw [bytes, Utf8.encode, List.flatMap_cons, List.length_append]
  rfl

theorem bytes_append : bytes (cs ++ ds) = bytes cs + bytes ds := by
  rw [bytes, Utf8.encode, List.flatMap_append, List.length_append]
  rfl

theorem bytes_reverse : bytes cs.reverse = bytes cs := by
  induction cs with
  | nil => rfl
  | cons c cs ih =>
    rw [List.reverse_cons, bytes_append, bytes_cons, bytes_cons, bytes_nil, ih]
    omega

theorem encodeChar_length_pos (c : Char) : 0 < (Utf8.encodeChar c).length := by
  rw [Utf8.encodeChar]
  repeat' split
  all_goals exact Nat.succ_pos _

theorem length_le_bytes (cs : List Char) : cs.length ≤ bytes cs := by
  induction cs with
  | nil => exact Nat.le_refl 0
  | cons c cs ih =>
    have hpos := encodeChar_length_pos c
    rw [bytes_cons, List.length_cons]
    omega

/-! ## Lines -/

theorem bytes_closeLine_le (line : List Char) : bytes (closeLine line) ≤ bytes line := by
  rw [closeLine.eq_def]
  split
  · rw [bytes_reverse, bytes_cons]
    omega
  · exact Nat.le_of_eq bytes_reverse

/-- The bytes of lines, each with one for its end. -/
def bytesOfLines : List (List Char) → Nat
  | [] => 0
  | line :: ls => bytes line + 1 + bytesOfLines ls

theorem length_le_bytesOfLines (ls : List (List Char)) : ls.length ≤ bytesOfLines ls := by
  induction ls with
  | nil => exact Nat.le_refl 0
  | cons line ls ih =>
    rw [bytesOfLines, List.length_cons]
    omega

theorem bytes_lt_bytesOfLines {ls : List (List Char)} (h : line ∈ ls) :
    bytes line < bytesOfLines ls := by
  induction ls with
  | nil => cases h
  | cons other ls ih =>
    rw [bytesOfLines]
    rcases List.mem_cons.mp h with rfl | h
    · omega
    · exact Nat.lt_of_lt_of_le (ih h) (Nat.le_add_left _ _)

theorem bytesOfLines_append (ls ms : List (List Char)) :
    bytesOfLines (ls ++ ms) = bytesOfLines ls + bytesOfLines ms := by
  induction ls with
  | nil => exact (Nat.zero_add _).symm
  | cons line ls ih =>
    rw [List.cons_append, bytesOfLines, bytesOfLines, ih]
    exact (Nat.add_assoc _ _ _).symm

theorem bytesOfLines_reverse (ls : List (List Char)) :
    bytesOfLines ls.reverse = bytesOfLines ls := by
  induction ls with
  | nil => rfl
  | cons line ls ih =>
    rw [List.reverse_cons, bytesOfLines_append, ih, bytesOfLines, bytesOfLines, bytesOfLines,
      Nat.add_zero, Nat.add_comm]

/-- A character read adds no more than itself to the finished lines and the open one. -/
theorem bytes_lineStep_le (done : List (List Char)) (line : List Char) (c : Char) :
    bytesOfLines (lineStep (done, line) c).1 + bytes (lineStep (done, line) c).2 ≤
      bytesOfLines done + bytes line + (Utf8.encodeChar c).length := by
  have hpos := encodeChar_length_pos c
  have hclose := bytes_closeLine_le line
  rw [lineStep]
  split
  · simp only [bytesOfLines, bytes_nil]
    omega
  · simp only [bytes_cons]
    omega

theorem bytes_foldl_le (done : List (List Char)) (line cs : List Char) :
    bytesOfLines (cs.foldl lineStep (done, line)).1 + bytes (cs.foldl lineStep (done, line)).2 ≤
      bytesOfLines done + bytes line + bytes cs := by
  induction cs generalizing done line with
  | nil => exact Nat.le_refl _
  | cons c cs ih =>
    have hstep := bytes_lineStep_le done line c
    rw [List.foldl_cons, bytes_cons]
    obtain ⟨⟨done', line'⟩, hst⟩ : ∃ st, lineStep (done, line) c = st := ⟨_, rfl⟩
    rw [hst] at hstep ⊢
    dsimp only at hstep
    exact Nat.le_trans (ih done' line') (by omega)

/-- The last line may lack its end in the text. -/
theorem bytesOfLines_lines_le (cs : List Char) : bytesOfLines (lines cs) ≤ bytes cs + 1 := by
  have hread := bytes_foldl_le [] [] cs
  rw [bytesOfLines, bytes_nil, Nat.zero_add] at hread
  rw [lines.eq_def]
  split
  · next done hfold =>
    rw [hfold] at hread
    rw [bytesOfLines_reverse]
    dsimp only at hread
    omega
  · next done line _ hfold =>
    rw [hfold] at hread
    rw [bytesOfLines_reverse, bytesOfLines, bytes_reverse]
    dsimp only at hread
    omega

theorem length_lines_le (cs : List Char) : (lines cs).length ≤ bytes cs + 1 :=
  Nat.le_trans (length_le_bytesOfLines _) (bytesOfLines_lines_le cs)

theorem bytes_le_of_mem_lines (h : line ∈ lines cs) : bytes line ≤ bytes cs :=
  Nat.le_of_lt_succ (Nat.lt_of_lt_of_le (bytes_lt_bytesOfLines h) (bytesOfLines_lines_le cs))

end WorkflowLint.Text

import Mathlib.Data.String.Basic
import WorkflowLint.Proofs.Number.Widths
import WorkflowLint.Proofs.Text.Words
import WorkflowLint.Text.Excerpt
import WorkflowLint.Text.Quoted
/-!
# How long excerpts and quoted texts are

An excerpt is not much longer than its limit, as long as the size of the whole text has 20 digits. A
quoted text is longer than the text.
-/

namespace WorkflowLint.Text

variable {s : String} {limit : Nat}

theorem length_trimmed_le (s : String) : (trimmed s).length ≤ s.length := by
  rw [trimmed, String.length_ofList, ← String.length_toList]
  exact length_trim_le _

theorem utf8ByteSize_le (s : String) : s.utf8ByteSize ≤ 4 * s.length := by
  rw [← String.ofList_toList (s := s), String.utf8ByteSize_ofList, String.length_ofList]
  generalize s.toList = cs
  induction cs with
  | nil => exact Nat.le_refl _
  | cons c cs ih =>
    have hc := c.utf8Size_le_four
    rw [String.utf8Len_cons, List.length_cons]
    omega

theorem length_encode_le (cs : List Char) : (Utf8.encode cs).length ≤ 4 * cs.length := by
  induction cs with
  | nil => exact Nat.le_refl _
  | cons c cs ih =>
    have hc : (Utf8.encodeChar c).length ≤ 4 := by
      rw [Utf8.encodeChar]
      split_ifs <;> simp
    rw [Utf8.encode, List.flatMap_cons, List.length_append, List.length_cons]
    rw [Utf8.encode] at ih
    omega

theorem length_excerpt_le (h : s.length < 2 ^ 63) : (excerpt limit s).length ≤ limit + 38 := by
  rw [excerpt]
  split
  · next hfits =>
    rw [String.length_toList] at hfits
    omega
  · have hsize := length_repr_le (k := 20) (by decide)
      (show s.utf8ByteSize < 10 ^ 20 from by have := utf8ByteSize_le s; omega)
    simp only [String.length_append, String.length_ofList, List.length_take]
    change _ + (5 + s.utf8ByteSize.repr.length + 13) ≤ _
    omega

theorem length_quotedChar_pos (c : Char) : 0 < (quotedChar c).length := by
  rw [quotedChar]
  split_ifs <;> simp

theorem length_lt_quoted (s : String) : s.length < (quoted s).length := by
  have hle : ∀ cs : List Char, cs.length ≤ (cs.flatMap quotedChar).length := by
    intro cs
    induction cs with
    | nil => exact Nat.le_refl _
    | cons c cs ih =>
      have hpos := length_quotedChar_pos c
      rw [List.flatMap_cons, List.length_append, List.length_cons]
      omega
  have hs := hle s.toList
  rw [String.length_toList] at hs
  rw [quoted, String.length_append, String.length_append]
  change s.length < 1 + (String.ofList _).length + 1
  rw [String.length_ofList]
  omega

end WorkflowLint.Text

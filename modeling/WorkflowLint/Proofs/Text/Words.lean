import Mathlib.Data.List.DropRight
import WorkflowLint.Text.Blank
/-!
# Words and numerals

What trimming does to a text that is put together, and what it leaves: a text is blank, or it has a
first character that is not. `Amid` says that a word stands between blanks, which trimming takes
off (`Amid.trim_eq`). A numeral is such a word, and its digits add up to the number it was written
for (`value_digits`).
-/

namespace WorkflowLint.Text

/-! ## Trimming -/

/-- A word with blanks around it. -/
def Amid (word cs : List Char) : Prop :=
  ∃ before after, allBlank before = true ∧ allBlank after = true ∧ cs = before ++ word ++ after

variable {bs cs ds : List Char} {c : Char}

theorem trimStart_blank_append (h : allBlank bs = true) : trimStart (bs ++ cs) = trimStart cs :=
  List.dropWhile_append_of_pos (List.all_eq_true.mp h)

theorem trimStart_append_cons (hc : isBlank c = false) :
    trimStart (cs ++ c :: ds) = trimStart cs ++ c :: ds := by
  rw [trimStart, trimStart, List.dropWhile_append, List.dropWhile_cons_of_neg (by simp [hc])]
  split
  · next h => rw [List.isEmpty_iff.mp h, List.nil_append]
  · rfl

theorem trimEnd_eq (cs : List Char) : trimEnd cs = (trimStart cs.reverse).reverse := rfl

theorem allBlank_reverse : allBlank cs.reverse = allBlank cs := List.all_reverse

theorem trimEnd_append_blank (h : allBlank bs = true) : trimEnd (cs ++ bs) = trimEnd cs := by
  rw [trimEnd_eq, List.reverse_append, trimStart_blank_append (allBlank_reverse.trans h),
    ← trimEnd_eq]

theorem trimEnd_append_cons (hc : isBlank c = false) :
    trimEnd (cs ++ c :: ds) = cs ++ c :: trimEnd ds := by
  rw [trimEnd_eq, List.reverse_append, List.reverse_cons, List.append_assoc, List.singleton_append,
    trimStart_append_cons hc, trimEnd_eq]
  simp

theorem blank_or_split (cs : List Char) :
    allBlank cs = true ∨
      ∃ bs c ds, allBlank bs = true ∧ isBlank c = false ∧ cs = bs ++ c :: ds := by
  cases h : cs.dropWhile isBlank with
  | nil => exact .inl (List.all_eq_true.mpr (List.dropWhile_eq_nil_iff.mp h))
  | cons c ds =>
    refine .inr ⟨cs.takeWhile isBlank, c, ds, ?_, ?_, ?_⟩
    · exact List.all_eq_true.mpr fun _ hx => List.mem_takeWhile_imp hx
    · have hhead := List.head?_dropWhile_not isBlank cs
      rw [h] at hhead
      simpa using hhead
    · rw [← h, List.takeWhile_append_dropWhile]

theorem trimStart_of_blank (h : allBlank cs = true) : trimStart cs = [] :=
  List.dropWhile_eq_nil_iff.mpr (List.all_eq_true.mp h)

theorem trim_of_blank (h : allBlank cs = true) : trim cs = [] := by
  rw [trim, trimStart_of_blank h, trimEnd_nil]

theorem trim_split (hbs : allBlank bs = true) (hc : isBlank c = false) :
    trim (bs ++ c :: ds) = c :: trimEnd ds := by
  rw [trim, trimStart_append_cons hc, trimStart_of_blank hbs]
  exact trimEnd_append_cons hc

theorem trim_eq_nil_iff : trim cs = [] ↔ allBlank cs = true := by
  refine ⟨fun h => ?_, trim_of_blank⟩
  obtain hblank | ⟨bs, c, ds, hbs, hc, rfl⟩ := blank_or_split cs
  · exact hblank
  · rw [trim_split hbs hc] at h
    cases h

theorem trim_trimStart (cs : List Char) : trim (trimStart cs) = trim cs := by
  obtain hblank | ⟨bs, c, ds, hbs, hc, rfl⟩ := blank_or_split cs
  · rw [trimStart_of_blank hblank, trim_of_blank hblank, trim_nil]
  · rw [trimStart_append_cons hc, trim_split (by rw [trimStart_of_blank hbs]; rfl) hc,
      trim_split hbs hc]

theorem trimEnd_trimEnd (cs : List Char) : trimEnd (trimEnd cs) = trimEnd cs := by
  rw [trimEnd_eq (trimEnd cs), trimEnd_eq cs, List.reverse_reverse, trimStart, trimStart,
    List.dropWhile_idempotent]

theorem trim_trimEnd (cs : List Char) : trim (trimEnd cs) = trim cs := by
  obtain hblank | ⟨bs, c, ds, hbs, hc, rfl⟩ := blank_or_split cs
  · rw [trimEnd_eq, trimStart_of_blank (allBlank_reverse.trans hblank), trim_of_blank hblank]
    rfl
  · rw [trimEnd_append_cons hc, trim_split hbs hc, trim_split hbs hc, trimEnd_trimEnd]

theorem trim_append_blank (h : allBlank bs = true) : trim (cs ++ bs) = trim cs := by
  rw [← trim_trimEnd, trimEnd_append_blank h, trim_trimEnd]

theorem trim_trim (cs : List Char) : trim (trim cs) = trim cs :=
  (trim_trimEnd (trimStart cs)).trans (trim_trimStart cs)

theorem trimEnd_of_suffix (h : ds <:+ trimEnd cs) : trimEnd ds = ds := by
  obtain ⟨before, hbefore⟩ := h
  cases hds : ds.reverse with
  | nil => rw [List.reverse_eq_nil_iff.mp hds, trimEnd_nil]
  | cons d es =>
    have hhead := List.head?_dropWhile_not isBlank cs.reverse
    rw [← List.reverse_reverse (cs.reverse.dropWhile isBlank), ← trimEnd, ← hbefore,
      List.reverse_append, hds] at hhead
    have hd : isBlank d = false := by simpa using hhead
    have hlast : ds = es.reverse ++ [d] := by rw [← List.reverse_reverse ds, hds, List.reverse_cons]
    rw [hlast, trimEnd_append_cons hd, trimEnd_nil]

theorem trim_suffix (h : ds <:+ trimEnd cs) : trim ds <:+ trimEnd cs := by
  have hstart : trimStart ds <:+ trimEnd cs := (List.dropWhile_suffix isBlank).trans h
  rw [trim, trimEnd_of_suffix hstart]
  exact hstart

theorem length_trimStart_le (cs : List Char) : (trimStart cs).length ≤ cs.length :=
  (List.dropWhile_sublist _).length_le

theorem length_trimEnd_le (cs : List Char) : (trimEnd cs).length ≤ cs.length := by
  rw [trimEnd, List.length_reverse]
  exact (List.dropWhile_sublist _).length_le.trans List.length_reverse.le

theorem length_trim_le (cs : List Char) : (trim cs).length ≤ cs.length :=
  (length_trimEnd_le _).trans (length_trimStart_le cs)

theorem amid_trim (cs : List Char) : Amid (trim cs) cs := by
  refine ⟨cs.takeWhile isBlank, ((trimStart cs).reverse.takeWhile isBlank).reverse,
    List.all_eq_true.mpr fun _ hx => List.mem_takeWhile_imp hx, ?_, ?_⟩
  · rw [allBlank_reverse]
    exact List.all_eq_true.mpr fun _ hx => List.mem_takeWhile_imp hx
  · rw [List.append_assoc, trim, trimEnd, ← List.reverse_append, List.takeWhile_append_dropWhile,
      List.reverse_reverse, trimStart, List.takeWhile_append_dropWhile]

theorem Amid.trim_eq {word : List Char} (h : Amid word cs) (hword : ∀ c ∈ word, isBlank c = false) :
    trim cs = word := by
  obtain ⟨before, after, hbefore, hafter, rfl⟩ := h
  rw [trim_append_blank hafter]
  cases word with
  | nil => rw [List.append_nil, trim_of_blank hbefore]
  | cons c ds =>
    rw [trim_split hbefore (hword c List.mem_cons_self)]
    -- the last character of the word is no blank either
    cases hlast : ds.reverse with
    | nil => rw [List.reverse_eq_nil_iff.mp hlast, trimEnd_nil]
    | cons d es =>
      have hds : ds = es.reverse ++ [d] := by
        rw [← List.reverse_reverse ds, hlast, List.reverse_cons]
      have hd : isBlank d = false := hword d (by rw [hds]; simp)
      rw [hds, trimEnd_append_cons hd, trimEnd_nil]

/-! ## Numerals -/

theorem isBlank_of_isDigit (h : c.isDigit = true) : isBlank c = false := by
  simp only [Char.isDigit, Bool.and_eq_true, decide_eq_true_eq] at h
  have low : 48 ≤ c.toNat := h.1
  have high : c.toNat ≤ 57 := h.2
  simp [isBlank]
  omega

theorem value_digits (zeros n : Nat) :
    (List.replicate zeros '0' ++ Nat.toDigits 10 n).foldl (fun n c => n * 10 + (c.toNat - 48)) 0 =
      n := by
  have hfold := Nat.ofDigitChars_append (b := 10) (l := List.replicate zeros '0')
    (m := Nat.toDigits 10 n) 0
  rw [Nat.ofDigitChars_replicate_zero, Nat.mul_zero, Nat.ofDigitChars_ten_toDigits,
    Nat.ofDigitChars_eq_foldl] at hfold
  refine Eq.trans ?_ hfold
  exact congrArg (fun f => (List.replicate zeros '0' ++ Nat.toDigits 10 n).foldl f 0)
    (funext₂ fun m c => by rw [Nat.mul_comm]; rfl)

end WorkflowLint.Text

import WorkflowLint.Proofs.Lint.Checked
/-!
# The range of a diagnostic

A diagnostic is marked where its finding points, or in the document at or below that line, where the
script of a helper's report stands. Either range is non-empty and told in 32 bits, whatever numbers
the finding and the report give (`mapped_in_range`).
-/

namespace WorkflowLint

open Script (width)

/-- The diagnostic is marked where the finding points: counted from zero and cut to 32 bits. The end
is taken from the finding if it lies behind the start. -/
def Finding.MarkedAsIs (f : Finding) (d : Diagnostic) : Prop :=
  (d.line : Int) = min (max (f.line - 1) 0) (2 ^ 32 - 1) ∧
    (d.startCol : Int) = min (max (f.column - 1) 0) (2 ^ 32 - 2) ∧
    (d.endCol : Int) =
      if (d.startCol : Int) < min f.endColumn (2 ^ 32 - 1) then min f.endColumn (2 ^ 32 - 1)
      else d.startCol + 1

/-- The diagnostic is marked on a line of the document, not above that of the finding, from a column
that the line reaches to its end. -/
def Finding.MarkedIn (lines : List (List Char)) (f : Finding) (d : Diagnostic) : Prop :=
  ∃ line, lines[d.line]? = some line ∧ min (max (f.line - 1) 0) (2 ^ 32 - 1) ≤ (d.line : Int) ∧
    d.startCol ≤ width line ∧ width line ≤ d.endCol

/-! ## Places in scripts -/

/-- A place that is found in a document lies in it, at or below the line of the key. -/
theorem Script.inside_of_place? {lines : List (List Char)} {statement i c : Nat} {p : Place}
    (h : place? lines statement i c = some p) :
    statement ≤ p.line ∧ p.start < p.stop ∧ Fits p ∧
      ∃ line, lines[p.line]? = some line ∧ p.start ≤ width line ∧ width line ≤ p.stop := by
  rw [place?] at h
  split at h
  · cases h
  obtain ⟨text, -, h⟩ := Option.bind_eq_some_iff.mp h
  obtain ⟨⟨before, after⟩, -, h⟩ := Option.bind_eq_some_iff.mp h
  obtain ⟨q, hbelow, hmark⟩ : ∃ q : Nat × Nat, statement ≤ q.1 ∧ mark? lines q.1 q.2 = some p := by
    dsimp only at h
    split at h
    · obtain ⟨q, hq, hmark⟩ := Option.bind_eq_some_iff.mp h
      refine ⟨q, ?_, hmark⟩
      rw [inBlock?] at hq
      split at hq
      · cases hq
      · obtain ⟨n, -, rfl⟩ := Option.map_eq_some_iff.mp hq
        exact Nat.le_add_right _ _
    · obtain ⟨q, hq, hmark⟩ := Option.bind_eq_some_iff.mp h
      refine ⟨q, ?_, hmark⟩
      rw [inLine?] at hq
      split at hq
      · obtain rfl := Option.some.inj hq
        exact Nat.le_refl _
      · cases hq
  obtain ⟨text, htext, hwidth, rfl, hfits⟩ := mark?_eq_some_iff.mp hmark
  exact ⟨hbelow, Nat.le_max_left _ _, hfits, text, htext, hwidth, Nat.le_max_right _ _⟩

namespace Finding

variable {f : Finding} {lines : Option (List (List Char))}

/-! ## Ranges -/

theorem stop_place_cases (f : Finding) :
    f.place.start < toWord f.endColumn ∧ f.place.stop = toWord f.endColumn ∨
      toWord f.endColumn ≤ f.place.start ∧ f.place.stop = f.place.start + 1 := by
  by_cases h : f.place.start < toWord f.endColumn
  · exact .inl ⟨h, if_pos h⟩
  · exact .inr ⟨Nat.le_of_not_lt h, if_neg h⟩

theorem toWord_le (n : Int) : toWord n ≤ maxWord := Nat.min_le_right _ _

theorem place_fits (f : Finding) : f.place.start < f.place.stop ∧ Script.Fits f.place := by
  have hstart : f.place.start ≤ Diagnostic.maxStart := Nat.min_le_right _ _
  have hend := toWord_le f.endColumn
  have hline : f.place.line ≤ maxWord := toWord_le _
  have hroom : Diagnostic.maxStart + 1 = maxWord := rfl
  have hstop := f.stop_place_cases
  rw [Script.Fits]
  omega

theorem mark_cases (lines : Option (List (List Char))) (f : Finding) :
    f.mark lines = f.place ∨ ∃ (ls : List (List Char)) (r : HelperReport), lines = some ls ∧
      Script.place? ls f.place.line r.line r.column = some (f.mark lines) := by
  rw [mark]
  cases hreport : f.report? with
  | none => exact .inl rfl
  | some r =>
    cases lines with
    | none => exact .inl rfl
    | some ls =>
      dsimp only [Option.bind_eq_bind, Option.bind_some]
      cases hplace : Script.place? ls f.place.line r.line r.column with
      | none => exact .inl rfl
      | some p => exact .inr ⟨ls, r, rfl, hplace⟩

theorem mark_fits (lines : Option (List (List Char))) (f : Finding) :
    (f.mark lines).start < (f.mark lines).stop ∧ Script.Fits (f.mark lines) := by
  rcases mark_cases lines f with h | ⟨ls, r, -, h⟩
  · rw [h]
    exact f.place_fits
  · obtain ⟨-, hlt, hfits, -⟩ := Script.inside_of_place? h
    exact ⟨hlt, hfits⟩

theorem range_diagnose (chosen : Table String Severity) (lines : Option (List (List Char)))
    (f : Finding) :
    (f.diagnose chosen lines).line = (f.mark lines).line ∧
      (f.diagnose chosen lines).startCol = (f.mark lines).start ∧
      (f.diagnose chosen lines).endCol = (f.mark lines).stop := by
  obtain ⟨hlt, -, hstop⟩ := mark_fits lines f
  have hstart : min (f.mark lines).start Diagnostic.maxStart = (f.mark lines).start := by
    simp only [Diagnostic.maxStart, maxWord] at *
    omega
  refine ⟨rfl, hstart, ?_⟩
  change max (f.mark lines).stop (min (f.mark lines).start Diagnostic.maxStart + 1) = _
  rw [hstart]
  exact Nat.max_eq_left hlt

theorem markedAsIs_of_place {chosen : Table String Severity} (h : f.mark lines = f.place) :
    f.MarkedAsIs (f.diagnose chosen lines) := by
  obtain ⟨hline, hstart, hend⟩ := range_diagnose chosen lines f
  have hfirst : f.place.start = min (fromZero f.column) Diagnostic.maxStart := rfl
  have hat : f.place.line = fromZero f.line := rfl
  have hstop := f.stop_place_cases
  rw [MarkedAsIs, hline, hstart, hend, h]
  simp only [fromZero, toWord, Diagnostic.maxStart, maxWord] at hfirst hat hstop
  refine ⟨by omega, by omega, ?_⟩
  split <;> omega

theorem markedIn_of_place? {chosen : Table String Severity} {ls : List (List Char)} {i c : Nat}
    (h : Script.place? ls f.place.line i c = some (f.mark lines)) :
    f.MarkedIn ls (f.diagnose chosen lines) := by
  obtain ⟨hline, hstart, hend⟩ := range_diagnose chosen lines f
  obtain ⟨hbelow, -, -, text, htext, hwidth, hstop⟩ := Script.inside_of_place? h
  refine ⟨text, by rw [hline, htext], ?_, by rw [hstart]; exact hwidth, by rw [hend]; exact hstop⟩
  rw [hline]
  simp only [place, fromZero, toWord, maxWord] at hbelow
  omega

end Finding

/-- Every finding has its diagnostic, in the order of the findings, and each is marked with a range
that is not empty and told in 32 bits, where the finding points or in the document. On a text that
fits into memory no number runs over or under and no text is cut inside a character. -/
theorem mapped_in_range (chosen : Table String Severity) (text : Option String)
    (fs : List Finding) :
    ((∀ t, text = some t → Text.bytes t.toList < 2 ^ 63) →
      Checked.diagnoseAll chosen text fs = .ok (diagnoseAll chosen text fs)) ∧
    List.Forall₂ (fun f d => diagnoseAll chosen text [f] = [d] ∧
      d.startCol < d.endCol ∧ d.endCol < 2 ^ 32 ∧ d.line < 2 ^ 32 ∧
      (f.MarkedAsIs d ∨ ∃ t, text = some t ∧ f.MarkedIn (Text.lines t.toList) d))
      fs (diagnoseAll chosen text fs) := by
  refine ⟨fun h => Checked.diagnoseAll_eq chosen h fs, ?_⟩
  rw [diagnoseAll, List.forall₂_map_right_iff, List.forall₂_same]
  intro f _
  obtain ⟨hline, hstart, hend⟩ :=
    f.range_diagnose chosen (text.map fun s => Text.lines s.toList)
  obtain ⟨hlt, hlast, hstop⟩ := f.mark_fits (text.map fun s => Text.lines s.toList)
  refine ⟨rfl, by rw [hstart, hend]; exact hlt, by rw [hend]; exact Nat.lt_succ_of_le hstop,
    by rw [hline]; exact Nat.lt_succ_of_le hlast, ?_⟩
  rcases Finding.mark_cases (text.map fun s => Text.lines s.toList) f with h | ⟨ls, r, hls, h⟩
  · exact .inl (Finding.markedAsIs_of_place h)
  · obtain ⟨t, ht, rfl⟩ := Option.map_eq_some_iff.mp hls
    exact .inr ⟨t, ht, Finding.markedIn_of_place? h⟩

/-- A finding with numbers of 64 bits and one about a script. -/
def farAndNear : List Finding :=
  [{ message := "m", kind := "expression"
     line := 2 ^ 63 - 1, column := -2 ^ 63, endColumn := 2 ^ 40 },
   { message := "in this script: SC2086:info:1:6: x", kind := "shellcheck"
     line := 1, column := 3 }]

theorem mapped_farAndNear :
    Checked.diagnoseAll {} (some "- run: |\n    echo $é\n") farAndNear = .ok [
      { severity := .error, message := "m", line := 2 ^ 32 - 1, startCol := 0, endCol := 2 ^ 32 - 1
        source := "actionlint", code := "expression" },
      { severity := .information, message := "x", line := 1, startCol := 9, endCol := 11
        source := "actionlint", code := "shellcheck:SC2086" }] := by
  rw [(mapped_in_range {} (some "- run: |\n    echo $é\n") farAndNear).1]
  · decide
  · rintro t ⟨⟩
    decide

end WorkflowLint

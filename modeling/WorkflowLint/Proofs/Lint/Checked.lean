import WorkflowLint.Lint.Diagnosis
import WorkflowLint.Proofs.Lint.Scripts
import WorkflowLint.Proofs.Text.Sizes
import Mathlib.Algebra.Group.Int.Defs
import Mathlib.Algebra.Group.Nat.Defs
/-!
# Mapping on a machine

The mapping of findings once more, with all that can go wrong on a machine: numbers are words of 32
or of 64 bits that run over or under, and texts are bytes that can only be cut between characters.
Any of that is a `Fault`. Places in texts are counted in bytes until a number of characters is
needed. A report is read as before: that neither counts nor cuts, and a number that is too large for
its word is refused there. On a text of less than 2^63 bytes no fault occurs, and the diagnostics
are the same (`Checked.diagnoseAll_eq`).
-/

namespace WorkflowLint

namespace Checked

open Text (trimStart trimEnd allBlank bytes Utf8.encodeChar)
open Script (key opensKey isBlockMark openingQuotes)

/-- What a machine refuses. -/
inductive Fault where
  | overflow
  | underflow
  | inCharacter
  | outOfRange
  deriving DecidableEq

/-! ## Words and bytes -/

/-- A sum in words of some bits. -/
def add (bits a b : Nat) : Except Fault Nat :=
  if a + b < 2 ^ bits then .ok (a + b) else .error .overflow

/-- A difference in words. -/
def sub (a b : Nat) : Except Fault Nat :=
  if b ≤ a then .ok (a - b) else .error .underflow

/-- The number of items, in a word of 64 bits. -/
def count {α : Type} (as : List α) : Except Fault Nat :=
  if as.length < 2 ^ 64 then .ok as.length else .error .overflow

/-- A signed word of 64 bits less one, the least one staying as it is. -/
def pred (n : Int) : Int := max (n - 1) (-2 ^ 63)

/-- A text cut behind a number of bytes. -/
def cut : List Char → Nat → Except Fault (List Char × List Char)
  | cs, 0 => .ok ([], cs)
  | [], _ + 1 => .error .outOfRange
  | c :: cs, n + 1 =>
    if (Utf8.encodeChar c).length ≤ n + 1 then
      (cut cs (n + 1 - (Utf8.encodeChar c).length)).map fun (u, v) => (c :: u, v)
    else .error .inCharacter

variable {a b bits : Nat} {u v line : List Char}

theorem ok_bind {α β : Type} (x : α) (f : α → Except Fault β) : (Except.ok x >>= f) = f x := rfl

theorem add_eq (h : a + b < 2 ^ bits) : add bits a b = .ok (a + b) := if_pos h

theorem sub_eq (h : b ≤ a) : sub a b = .ok (a - b) := if_pos h

theorem count_eq {α : Type} {as : List α} (h : as.length < 2 ^ 64) : count as = .ok as.length :=
  if_pos h

theorem toWord_pred (n : Int) : Finding.toWord (pred n) = Finding.fromZero n := by
  simp only [Finding.fromZero, Finding.toWord, pred]
  omega

theorem cut_eq_ok_iff : cut line a = .ok (u, v) ↔ line = u ++ v ∧ a = bytes u := by
  constructor
  · intro h
    induction line, a using cut.induct generalizing u with
    | case1 line =>
      rw [cut] at h
      obtain ⟨rfl, rfl⟩ := Prod.mk.inj (Except.ok.inj h)
      exact ⟨rfl, rfl⟩
    | case2 n => cases h
    | case3 c line n hle ih =>
      rw [cut, if_pos hle] at h
      cases hcut : cut line (n + 1 - (Utf8.encodeChar c).length) with
      | error => rw [hcut] at h; cases h
      | ok q =>
        rw [hcut] at h
        obtain ⟨rfl, rfl⟩ := Prod.mk.inj (Except.ok.inj h)
        obtain ⟨hline, hbytes⟩ := ih hcut
        refine ⟨by rw [hline, List.cons_append], ?_⟩
        rw [Text.bytes_cons]
        omega
    | case4 c line n hlt =>
      rw [cut, if_neg hlt] at h
      cases h
  · rintro ⟨rfl, rfl⟩
    induction u with
    | nil => rw [List.nil_append, Text.bytes_nil, cut]
    | cons c u ih =>
      have hpos := Text.encodeChar_length_pos c
      obtain ⟨n, hn⟩ : ∃ n, bytes (c :: u) = n + 1 :=
        ⟨bytes (c :: u) - 1, by rw [Text.bytes_cons]; omega⟩
      have hsize : n + 1 = (Utf8.encodeChar c).length + bytes u := by rw [← hn, Text.bytes_cons]
      have hrest : n + 1 - (Utf8.encodeChar c).length = bytes u := by omega
      rw [hn, List.cons_append, cut, if_pos (by omega), hrest, ih]
      rfl

example : cut "é".toList 1 = .error .inCharacter := by decide

/-! ## The parts of the mapping -/

/-- The number of blanks a line begins with: what trimming takes off. -/
def indent (line : List Char) : Except Fault Nat := do
  sub (← count line) (← count (trimStart line))

/-- Whether the rest of a line, from byte `at_` on, begins with a key that may stand there. -/
def isKey (line : List Char) (at_ : Nat) (rest : List Char) : Except Fault Bool :=
  if key.isPrefixOf rest then (cut line at_).map fun (before, _) => opensKey before.reverse
  else .ok false

/-- The byte of a line at which its first key begins. -/
def findKey (line : List Char) : Nat → List Char → Except Fault (Option Nat)
  | _, [] => .ok none
  | at_, c :: rest => do
    if ← isKey line at_ (c :: rest) then .ok (some at_)
    else findKey line (← add 64 at_ (Utf8.encodeChar c).length) rest

/-- Whether a line belongs to a block below a key at a column. -/
def isInside (column : Nat) (line : List Char) : Except Fault Bool :=
  if allBlank line then .ok true else (indent line).map fun n => decide (column < n)

def blockLength (column : Nat) : List (List Char) → Except Fault Nat
  | [] => .ok 0
  | line :: below => do
    if ← isInside column line then add 64 (← blockLength column below) 1 else .ok 0

def inBlock? (lines : List (List Char)) (statement : Nat) (before : List Char) (line col : Nat) :
    Except Fault (Option (Nat × Nat)) := do
  let column ← count before
  let start ← add 64 statement 1
  if lines.length < start then .ok none
  else
    let below := lines.drop start
    let length ← blockLength column below
    if length < line then .ok none
    else
      let body ← if length ≤ below.length then .ok (below.take length) else .error .outOfRange
      match body.find? fun l => !allBlank l with
      | none => .ok none
      | some first =>
        let margin ← indent first
        let l ← add 64 start (← sub line 1)
        let c ← add 64 margin (← sub col 1)
        .ok (some (l, c))

def inLine? (statement : Nat) (before after : List Char) (line col : Nat) :
    Except Fault (Option (Nat × Nat)) := do
  if line = 1 then
    let value := trimStart after
    let behindKey ← add 64 (← count before) (← count key)
    let start ← add 64 behindKey (← sub (← count after) (← count value))
    let inside ← add 64 start (openingQuotes value)
    let c ← add 64 inside (← sub col 1)
    .ok (some (statement, c))
  else .ok none

/-- The range from a column to the end of its line. -/
def mark? (lines : List (List Char)) (line column : Nat) : Except Fault (Option Place) :=
  match lines[line]? with
  | none => .ok none
  | some text => do
    let width ← count (trimEnd text)
    if width < column then .ok none
    else
      let stop := max (← add 64 column 1) width
      if line ≤ maxWord ∧ column ≤ maxWord ∧ stop ≤ maxWord then
        .ok (some { line, start := column, stop })
      else .ok none

/-- The place in the document of a line and a column of a script. -/
def place? (lines : List (List Char)) (statement line col : Nat) : Except Fault (Option Place) :=
  if line = 0 ∨ col = 0 then .ok none
  else
    match lines[statement]? with
    | none => .ok none
    | some text => do
      match ← findKey text 0 text with
      | none => .ok none
      | some at_ =>
        let (before, _) ← cut text at_
        let (_, after) ← cut text (← add 64 at_ (bytes key))
        let spot ←
          if isBlockMark (trimStart after) then inBlock? lines statement before line col
          else inLine? statement before after line col
        match spot with
        | none => .ok none
        | some (l, c) => mark? lines l c

def own (f : Finding) : Except Fault Place := do
  let start := min (Finding.toWord (pred f.column)) Diagnostic.maxStart
  let stop ← if start < Finding.toWord f.endColumn then .ok (Finding.toWord f.endColumn)
    else add 32 start 1
  .ok { line := Finding.toWord (pred f.line), start, stop }

/-- Where the diagnostic of a finding is marked. -/
def mark (lines : Option (List (List Char))) (f : Finding) : Except Fault Place := do
  let place ← own f
  match f.report?, lines with
  | some r, some lines => return (← place? lines place.line r.line r.column).getD place
  | _, _ => return place

def diagnose (chosen : Table String Severity) (lines : Option (List (List Char))) (f : Finding) :
    Except Fault Diagnostic := do
  let place ← mark lines f
  let start := min place.start Diagnostic.maxStart
  let next ← add 32 start 1
  .ok {
    severity := f.severity chosen, message := f.text, line := place.line, startCol := start
    endCol := max place.stop next, source := Diagnostic.toolName, code := f.code }

def diagnoseAll (chosen : Table String Severity) (text : Option String) (fs : List Finding) :
    Except Fault (List Diagnostic) :=
  fs.mapM (diagnose chosen (text.map fun s => Text.lines s.toList))

/-! ## No part fails -/

/-- The lines of a text that a machine can hold. -/
structure Sized (lines : List (List Char)) : Prop where
  few : lines.length ≤ 2 ^ 63
  short : ∀ line ∈ lines, bytes line < 2 ^ 63

theorem length_lt (h : bytes line < 2 ^ 63) : line.length < 2 ^ 64 := by
  have hlength := Text.length_le_bytes line
  omega

theorem indent_eq (h : bytes line < 2 ^ 63) : indent line = .ok (Script.indent line) := by
  have hstart := Text.length_trimStart_le line
  have hsplit := congrArg List.length
    (List.takeWhile_append_dropWhile (p := Text.isBlank) (l := line))
  rw [List.length_append] at hsplit
  rw [indent, count_eq (length_lt h), ok_bind, count_eq (Nat.lt_of_le_of_lt hstart (length_lt h)),
    ok_bind, sub_eq hstart, Script.indent]
  simp only [trimStart, Except.ok.injEq] at *
  omega

theorem isKey_eq {rest : List Char} : isKey (u ++ rest) (bytes u) rest =
    .ok (key.isPrefixOf rest && opensKey u.reverse) := by
  rw [isKey]
  split
  · next hkey =>
    rw [cut_eq_ok_iff.mpr ⟨rfl, rfl⟩, hkey, Bool.true_and]
    rfl
  · next hkey => rw [Bool.eq_false_iff.mpr hkey, Bool.false_and]

theorem isInside_eq {column : Nat} (h : bytes line < 2 ^ 63) : isInside column line =
    .ok (allBlank line || decide (column < Script.indent line)) := by
  rw [isInside]
  split
  · next hblank => rw [hblank, Bool.true_or]
  · next hblank =>
    rw [indent_eq h, Bool.eq_false_iff.mpr hblank, Bool.false_or]
    rfl

theorem findKey_eq {rest : List Char} (h : bytes (u ++ rest) < 2 ^ 63) :
    findKey (u ++ rest) (bytes u) rest =
      .ok ((Script.splitKey u.reverse rest).map fun q => bytes q.1) := by
  induction rest generalizing u with
  | nil => rfl
  | cons c rest ih =>
    have hu : bytes (u ++ [c]) = bytes u + (Utf8.encodeChar c).length := by
      rw [Text.bytes_append, Text.bytes_cons, Text.bytes_nil, Nat.add_zero]
    have hnext := @ih (u ++ [c])
    rw [hu, List.append_assoc, List.singleton_append, List.reverse_append, List.reverse_singleton,
      List.singleton_append] at hnext
    have hadd : bytes u + (Utf8.encodeChar c).length < 2 ^ 64 := by
      rw [Text.bytes_append, Text.bytes_cons] at h
      omega
    rw [findKey, isKey_eq, ok_bind, Script.splitKey]
    split
    · rw [List.reverse_reverse]
      rfl
    · rw [add_eq hadd, ok_bind, hnext h]

theorem splitKey_eq_some {acc rest before after : List Char}
    (h : Script.splitKey acc rest = some (before, after)) :
    acc.reverse ++ rest = before ++ (key ++ after) := by
  induction rest generalizing acc with
  | nil => cases h
  | cons c rest ih =>
    rw [Script.splitKey] at h
    split at h
    · next hkey =>
      obtain ⟨rfl, rfl⟩ := Prod.mk.inj (Option.some.inj h)
      obtain ⟨after, hafter⟩ := List.isPrefixOf_iff_prefix.mp (Bool.and_eq_true_iff.mp hkey).1
      rw [← hafter, List.drop_left]
    · rw [← ih h, List.reverse_cons, List.append_assoc, List.singleton_append]

theorem blockLength_eq {column : Nat} {below : List (List Char)} (hfew : below.length ≤ 2 ^ 63)
    (hshort : ∀ line ∈ below, bytes line < 2 ^ 63) :
    blockLength column below = .ok (Script.block column below).length := by
  induction below with
  | nil => rfl
  | cons line below ih =>
    obtain ⟨hline, hshort⟩ := List.forall_mem_cons.mp hshort
    rw [List.length_cons] at hfew
    have hblock : (Script.block column below).length ≤ below.length :=
      (List.takeWhile_sublist _).length_le
    rw [blockLength, isInside_eq hline, ok_bind, Script.block, List.takeWhile_cons]
    split
    · rw [ih (by omega) hshort, ok_bind, add_eq (by omega), List.length_cons]
      rfl
    · rfl

theorem inBlock?_eq {lines : List (List Char)} {statement line col : Nat} {before : List Char}
    (hsized : Sized lines) (hstatement : statement < lines.length) (hbefore : bytes before < 2 ^ 63)
    (hline : 0 < line) (hcol : 0 < col) (hcol' : col < 2 ^ 32) :
    inBlock? lines statement before line col =
      .ok (Script.inBlock? lines statement before.length line col) := by
  have hfew := hsized.few
  have hshort : ∀ l ∈ lines.drop (statement + 1), bytes l < 2 ^ 63 :=
    fun l hl => hsized.short l (List.mem_of_mem_drop hl)
  have hlength : blockLength before.length (lines.drop (statement + 1)) =
      .ok (Script.block before.length (lines.drop (statement + 1))).length :=
    blockLength_eq (by rw [List.length_drop]; omega) hshort
  have hinit : Script.block before.length (lines.drop (statement + 1)) <+:
      lines.drop (statement + 1) := List.takeWhile_prefix _
  have htake := List.prefix_iff_eq_take.mp hinit
  have hle := hinit.length_le
  have hbody : ∀ l ∈ Script.block before.length (lines.drop (statement + 1)), bytes l < 2 ^ 63 :=
    fun l hl => hshort l (hinit.subset hl)
  rw [List.length_drop] at hle
  rw [inBlock?, count_eq (length_lt hbefore), ok_bind, add_eq (by omega), ok_bind,
    if_neg (by omega)]
  dsimp only
  rw [hlength, ok_bind, Script.inBlock?]
  split
  · rfl
  · next hlast =>
    rw [if_pos hinit.length_le, ok_bind, ← htake, Script.blockIndent?]
    split
    · next hnone => rw [hnone]; rfl
    · next first hfirst =>
      have hmargin := Text.length_le_bytes first
      have hsmall := hbody first (List.mem_of_find?_eq_some hfirst)
      have hindent : Script.indent first ≤ first.length := (List.takeWhile_sublist _).length_le
      rw [hfirst, indent_eq hsmall, ok_bind, sub_eq hline, ok_bind, add_eq (by omega), ok_bind,
        sub_eq hcol, ok_bind, add_eq (by omega), ok_bind, Option.map_some, Option.map_some]
      rw [show statement + 1 + (line - 1) = statement + line by omega]

theorem inLine?_eq {statement line col : Nat} {before after : List Char}
    (h : bytes before + bytes key + bytes after < 2 ^ 63) (hcol : 0 < col) (hcol' : col < 2 ^ 32) :
    inLine? statement before after line col =
      .ok (Script.inLine? statement before.length after line col) := by
  have hbefore := Text.length_le_bytes before
  have hkey := Text.length_le_bytes key
  have hafter := Text.length_le_bytes after
  have hvalue := Text.length_trimStart_le after
  have hquotes : openingQuotes (trimStart after) ≤ 1 := by
    rw [Script.openingQuotes_eq]
    split <;> decide
  rw [inLine?, Script.inLine?]
  split
  · rw [count_eq (by omega), ok_bind, count_eq (by omega), ok_bind, add_eq (by omega), ok_bind,
      count_eq (by omega), ok_bind, count_eq (by omega), ok_bind, sub_eq hvalue, ok_bind,
      add_eq (by omega), ok_bind, add_eq (by omega), ok_bind, sub_eq hcol, ok_bind,
      add_eq (by omega), ok_bind]
  · rfl

theorem mark?_eq {lines : List (List Char)} {line column : Nat} (hsized : Sized lines) :
    mark? lines line column = .ok (Script.mark? lines line column) := by
  rw [mark?, Script.mark?]
  split
  · next hnone => rw [hnone]; rfl
  · next text htext =>
    have hsmall := Text.length_le_bytes text
    have hshort := hsized.short text (List.mem_of_getElem? htext)
    have htrim := Text.length_trimEnd_le text
    rw [htext, Option.bind_eq_bind, Option.bind_some, count_eq (by omega), ok_bind]
    split
    · rw [if_neg (by omega)]
    · rw [add_eq (by omega), ok_bind]
      dsimp only
      split
      · rw [if_pos (by omega)]
      · rw [if_neg (by omega)]

theorem place?_eq {lines : List (List Char)} {statement line col : Nat} (hsized : Sized lines)
    (hcol : col < 2 ^ 32) :
    place? lines statement line col = .ok (Script.place? lines statement line col) := by
  rw [place?, Script.place?]
  split
  · rfl
  next hzero =>
  split
  · next hnone => rw [hnone]; rfl
  next text htext =>
  have hshort := hsized.short text (List.mem_of_getElem? htext)
  have hstatement := (List.getElem?_eq_some_iff.mp htext).1
  have hkey := @findKey_eq [] text hshort
  rw [List.nil_append, Text.bytes_nil, List.reverse_nil] at hkey
  rw [htext, Option.bind_eq_bind, Option.bind_some, hkey, ok_bind]
  cases hsplit : Script.splitKey [] text with
  | none => rfl
  | some q =>
    obtain ⟨before, after⟩ := q
    have htext := splitKey_eq_some hsplit
    rw [List.reverse_nil, List.nil_append] at htext
    have hsize : bytes before + bytes key + bytes after < 2 ^ 63 := by
      rw [htext, Text.bytes_append, Text.bytes_append] at hshort
      omega
    have hafter : cut text (bytes before + bytes key) = .ok (before ++ key, after) :=
      cut_eq_ok_iff.mpr ⟨by rw [htext, List.append_assoc], Text.bytes_append.symm⟩
    have hbefore : cut text (bytes before) = .ok (before, key ++ after) :=
      cut_eq_ok_iff.mpr ⟨htext, rfl⟩
    have hspot (spot : Option (Nat × Nat)) :
        (match spot with
          | none => .ok none
          | some (l, c) => mark? lines l c : Except Fault (Option Place)) =
        .ok (spot.bind fun q => Script.mark? lines q.1 q.2) := by
      cases spot with
      | none => rfl
      | some q => exact mark?_eq hsized
    have hadd : bytes before + bytes key < 2 ^ 64 := by omega
    simp only [Option.map_some, hbefore, hafter, add_eq hadd, ok_bind, Option.bind_eq_bind,
      Option.bind_some]
    split
    · rw [inBlock?_eq hsized hstatement (by omega) (by omega) (by omega) hcol, ok_bind]
      exact hspot _
    · rw [inLine?_eq hsize (by omega) hcol, ok_bind]
      exact hspot _

/-! ## The mapping does not fail -/

theorem own_eq (f : Finding) : own f = .ok f.place := by
  have hstart : min (Finding.fromZero f.column) Diagnostic.maxStart + 1 < 2 ^ 32 := by
    simp only [Diagnostic.maxStart, maxWord]
    omega
  rw [own, toWord_pred, toWord_pred, Finding.place]
  dsimp only
  split
  · rfl
  · rw [add_eq hstart, ok_bind]

theorem column_lt_of_report? {f : Finding} {r : HelperReport} (h : f.report? = some r) :
    r.column < 2 ^ 32 := by
  have hnumber {digits : List Char} {n : Nat} (hn : HelperReport.number? digits = some n) :
      n < 2 ^ 32 := by
    rw [HelperReport.number?] at hn
    split at hn
    · dsimp only at hn
      split at hn
      · next hlt =>
        obtain rfl := Option.some.inj hn
        exact hlt
      · cases hn
    · cases hn
  rw [Finding.report?] at h
  split at h
  · obtain ⟨p, -, h⟩ := Option.bind_eq_some_iff.mp h
    obtain ⟨line, -, h⟩ := Option.bind_eq_some_iff.mp h
    obtain ⟨column, hcolumn, h⟩ := Option.bind_eq_some_iff.mp h
    split at h
    · cases h
    · obtain rfl := Option.some.inj h
      exact hnumber hcolumn
  · cases h

theorem mark_eq {lines : Option (List (List Char))} (hsized : ∀ ls, lines = some ls → Sized ls)
    (f : Finding) : mark lines f = .ok (f.mark lines) := by
  rw [mark, own_eq, ok_bind, Finding.mark]
  cases hreport : f.report? with
  | none => rfl
  | some r =>
    cases lines with
    | none => rfl
    | some ls =>
      dsimp only
      rw [place?_eq (hsized ls rfl) (column_lt_of_report? hreport)]
      rfl

theorem diagnose_eq {lines : Option (List (List Char))} (hsized : ∀ ls, lines = some ls → Sized ls)
    (chosen : Table String Severity) (f : Finding) :
    diagnose chosen lines f = .ok (f.diagnose chosen lines) := by
  have hstart : min (f.mark lines).start Diagnostic.maxStart + 1 < 2 ^ 32 := by
    simp only [Diagnostic.maxStart, maxWord]
    omega
  rw [diagnose, mark_eq hsized, ok_bind]
  dsimp only
  rw [add_eq hstart, ok_bind]
  rfl

theorem sized_lines {cs : List Char} (h : bytes cs < 2 ^ 63) : Sized (Text.lines cs) where
  few := Nat.le_trans (Text.length_lines_le cs) h
  short _ hline := Nat.lt_of_le_of_lt (Text.bytes_le_of_mem_lines hline) h

/-- On a text that fits into memory nothing fails, whatever the findings are. -/
theorem diagnoseAll_eq (chosen : Table String Severity) {text : Option String}
    (h : ∀ t, text = some t → bytes t.toList < 2 ^ 63) (fs : List Finding) :
    diagnoseAll chosen text fs = .ok (WorkflowLint.diagnoseAll chosen text fs) := by
  have hsized : ∀ ls, (text.map fun s => Text.lines s.toList) = some ls → Sized ls := by
    intro ls hls
    obtain ⟨t, ht, rfl⟩ := Option.map_eq_some_iff.mp hls
    exact sized_lines (h t ht)
  have hall : diagnose chosen (text.map fun s => Text.lines s.toList) =
      fun f => pure (f.diagnose chosen (text.map fun s => Text.lines s.toList)) :=
    funext (diagnose_eq hsized chosen)
  rw [diagnoseAll, hall, List.mapM_pure]
  rfl

end Checked

end WorkflowLint

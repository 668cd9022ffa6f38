import WorkflowLint.Lint.Script
import WorkflowLint.Proofs.Text.Words
import Mathlib.Data.List.Forall2
/-!
# Places in scripts

`KeyLine` is a line with the key of a script, `BlockScript` a document with a script in a block
below such a line, and `InlineScript` one with a script on the line itself. What the reader of places
looks for in the document is where these put it: it finds the line of the key (`splitKey_text`), the
extent of a block and its margin (`block_below`, `blockIndent?_below`), and so the place of a
character (`found_where_written`).
-/

namespace WorkflowLint

namespace Script

open Text (trimStart trimEnd allBlank isBlank)

/-- The number of characters of a line up to its last one that is not blank. -/
def width (line : List Char) : Nat := (trimEnd line).length

/-- A place that can be told in 32 bits. -/
def Fits (p : Place) : Prop := p.line ≤ maxWord ∧ p.stop ≤ maxWord

/-- Every place in the document can be told in 32 bits. -/
def InWords (lines : List (List Char)) : Prop :=
  lines.length ≤ maxWord ∧ ∀ line ∈ lines, line.length < maxWord

theorem mark?_eq_some_iff {lines : List (List Char)} {line column : Nat} {p : Place} :
    mark? lines line column = some p ↔ ∃ text, lines[line]? = some text ∧ column ≤ width text ∧
      p = { line, start := column, stop := max (column + 1) (width text) } ∧ Fits p := by
  rw [mark?]
  constructor
  · intro h
    obtain ⟨text, htext, h⟩ := Option.bind_eq_some_iff.mp h
    refine ⟨text, htext, ?_⟩
    dsimp only at h
    split at h
    · next hfits =>
      obtain rfl := Option.some.inj h
      exact ⟨hfits.1, rfl, hfits.2⟩
    · cases h
  · rintro ⟨text, htext, hwidth, rfl, hfits⟩
    rw [htext, Option.bind_eq_bind, Option.bind_some]
    exact if_pos ⟨hwidth, hfits⟩

/-! ## The line of the key -/

/-- A key may stand behind the text. -/
def Opens (before : List Char) : Prop := ∀ c, before.getLast? = some c → isBlank c = true

/-- A line with a key that no other precedes, blanks and a value. -/
structure KeyLine where
  before : List Char
  gap : List Char
  value : List Char
  opens : Opens before
  first : ∀ u v, before = u ++ key ++ v → ¬ Opens u
  blank : allBlank gap = true

def KeyLine.text (k : KeyLine) : List Char := k.before ++ key ++ (k.gap ++ k.value)

theorem opensKey_iff {acc : List Char} : opensKey acc = true ↔ Opens acc.reverse := by
  cases acc with
  | nil => simp [opensKey, Opens]
  | cons c acc => simp [opensKey, Opens]

/-- The key is found at its first occurrence; `acc` are the characters passed. -/
theorem splitKey_append {after acc rest : List Char}
    (hopens : opensKey (rest.reverse ++ acc) = true)
    (hfirst : ∀ u v, rest = u ++ v → v ≠ [] → key <+: v ++ (key ++ after) →
      opensKey (u.reverse ++ acc) = false) :
    splitKey acc (rest ++ (key ++ after)) = some (acc.reverse ++ rest, after) := by
  induction rest generalizing acc with
  | nil =>
    have hkey : (key.isPrefixOf (key ++ after) && opensKey acc) = true := by
      rw [Bool.and_eq_true]
      exact ⟨List.isPrefixOf_iff_prefix.mpr (List.prefix_append _ _), hopens⟩
    rw [List.nil_append, List.append_nil]
    exact if_pos hkey
  | cons c rest ih =>
    have hnot : ¬ (key.isPrefixOf (c :: (rest ++ (key ++ after))) && opensKey acc) = true := by
      rw [Bool.and_eq_true]
      rintro ⟨hinit, hacc⟩
      have hfalse := hfirst [] (c :: rest) rfl nofun (List.isPrefixOf_iff_prefix.mp hinit)
      rw [List.reverse_nil, List.nil_append, hacc] at hfalse
      cases hfalse
    rw [List.cons_append, splitKey, if_neg hnot, ih]
    · simp
    · simpa using hopens
    · intro u v huv hv hinit
      simpa using hfirst (c :: u) v (by rw [huv, List.cons_append]) hv hinit

theorem prefix_of_prefix_append {v cs : List Char} (hne : v ≠ []) (hopens : Opens v)
    (h : key <+: v ++ cs) : key <+: v := by
  obtain ⟨rest, h⟩ := h
  rcases List.append_eq_append_iff.mp h with ⟨w, hv, -⟩ | ⟨w, hkey, -⟩
  · exact ⟨w, hv.symm⟩
  · have hlast := hopens _ (List.getLast?_eq_some_getLast hne)
    have hmem : v.getLast hne ∈ key := by
      rw [hkey]
      exact List.mem_append_left _ (List.getLast_mem hne)
    have hclear : key.all (fun c => !isBlank c) = true := by decide
    have hnot := List.all_eq_true.mp hclear _ hmem
    rw [hlast] at hnot
    cases hnot

theorem splitKey_text (k : KeyLine) : splitKey [] k.text = some (k.before, k.gap ++ k.value) := by
  rw [KeyLine.text, List.append_assoc, splitKey_append]
  · rfl
  · rw [List.append_nil, opensKey_iff, List.reverse_reverse]
    exact k.opens
  · intro u v huv hv hinit
    have hopens : Opens v := by
      intro c hc
      exact k.opens c (by rw [huv, List.getLast?_append, hc, Option.some_or])
    obtain ⟨w, rfl⟩ := prefix_of_prefix_append hv hopens hinit
    refine Bool.eq_false_iff.mpr fun hu => k.first u w (by rw [huv, List.append_assoc]) ?_
    rwa [List.append_nil, opensKey_iff, List.reverse_reverse] at hu

theorem trimStart_gap (k : KeyLine) {c : Char} {cs : List Char} (hvalue : k.value = c :: cs)
    (hc : isBlank c = false) : trimStart (k.gap ++ k.value) = k.value := by
  rw [Text.trimStart_blank_append k.blank, hvalue]
  exact List.dropWhile_cons_of_neg (by simp [hc])

/-! ## Blocks -/

/-- A line of a script as it stands in a block: behind blanks, or left empty when it is blank. -/
def Embeds (margin : Nat) (s line : List Char) : Prop :=
  line = List.replicate margin ' ' ++ s ∨ allBlank s = true ∧ line = []

/-- A document with a script in a block. The first line of the script that is not blank tells the
margin, so it begins without blanks. The block ends with the document or before a line that is not
indented past the key. -/
structure BlockScript where
  above : List (List Char)
  keyLine : KeyLine
  script : List (List Char)
  margin : Nat
  below : List (List Char)
  after : List (List Char)
  mark : isBlockMark keyLine.value = true
  flush : ∀ s, script.find? (fun s => !allBlank s) = some s →
    ∀ c, s.head? = some c → isBlank c = false
  deeper : keyLine.before.length < margin
  embeds : List.Forall₂ (Embeds margin) script below
  ends : ∀ line, after.head? = some line →
    allBlank line = false ∧ indent line ≤ keyLine.before.length

def BlockScript.lines (b : BlockScript) : List (List Char) :=
  b.above ++ b.keyLine.text :: (b.below ++ b.after)

theorem indent_margin (margin : Nat) (s : List Char) :
    indent (List.replicate margin ' ' ++ s) = margin + indent s := by
  have hblank : ∀ c ∈ List.replicate margin ' ', isBlank c = true := by
    intro c hc
    rw [(List.mem_replicate.mp hc).2]
    decide
  rw [indent, List.takeWhile_append_of_pos hblank, List.length_append, List.length_replicate,
    indent]

theorem indent_of_head {s : List Char} (h : ∀ c, s.head? = some c → isBlank c = false) :
    indent s = 0 := by
  cases s with
  | nil => rfl
  | cons c cs =>
    rw [indent, List.takeWhile_cons_of_neg (by simp [h c rfl])]
    rfl

theorem Embeds.allBlank_eq {margin : Nat} {s line : List Char} (h : Embeds margin s line) :
    allBlank line = allBlank s := by
  rcases h with rfl | ⟨hs, rfl⟩
  · simp [allBlank, show isBlank ' ' = true by decide]
  · rw [hs]
    rfl

theorem width_of_blank {line : List Char} (h : allBlank line = true) : width line = 0 := by
  rw [width, Text.trimEnd_eq, Text.trimStart_of_blank (Text.allBlank_reverse.trans h)]
  rfl

/-- Every line of a script stands in a block below a key left of the margin. -/
theorem Embeds.inBlock {margin column : Nat} {s line : List Char} (h : Embeds margin s line)
    (hcolumn : column < margin) : (allBlank line || decide (column < indent line)) = true := by
  rcases h with rfl | ⟨-, rfl⟩
  · have hindent := indent_margin margin s
    exact Bool.or_eq_true_iff.mpr (.inr (decide_eq_true (by omega)))
  · rfl

theorem forall_inBlock {margin column : Nat} {script below : List (List Char)}
    (h : List.Forall₂ (Embeds margin) script below) (hcolumn : column < margin) :
    ∀ line ∈ below, (allBlank line || decide (column < indent line)) = true := by
  induction h with
  | nil => nofun
  | cons hline _ ih => exact List.forall_mem_cons.mpr ⟨hline.inBlock hcolumn, ih⟩

theorem find?_embeds {margin : Nat} {script below : List (List Char)}
    (h : List.Forall₂ (Embeds margin) script below) :
    below.find? (fun line => !allBlank line) =
      (script.find? fun s => !allBlank s).map (List.replicate margin ' ' ++ ·) := by
  induction h with
  | nil => rfl
  | @cons s line script below hline _ ih =>
    rw [List.find?_cons, List.find?_cons, hline.allBlank_eq]
    cases hs : allBlank s with
    | true => exact ih
    | false =>
      rcases hline with rfl | ⟨hblank, -⟩
      · rfl
      · rw [hs] at hblank
        cases hblank

namespace BlockScript

variable (b : BlockScript)

theorem block_below : block b.keyLine.before.length (b.below ++ b.after) = b.below := by
  rw [block, List.takeWhile_append_of_pos (forall_inBlock b.embeds b.deeper)]
  cases hafter : b.after with
  | nil => simp
  | cons line rest =>
    obtain ⟨hblank, hindent⟩ := b.ends line (by rw [hafter]; rfl)
    rw [List.takeWhile_cons_of_neg (by simp [hblank]; omega), List.append_nil]

theorem blockIndent?_below :
    blockIndent? b.below = (b.script.find? fun s => !allBlank s).map fun _ => b.margin := by
  rw [blockIndent?, find?_embeds b.embeds, Option.map_map]
  refine Option.map_congr fun s hs => ?_
  rw [Function.comp_apply, indent_margin, indent_of_head (b.flush s hs), Nat.add_zero]

theorem inBlock?_eq {i c : Nat} (hc : 0 < c) :
    inBlock? b.lines b.above.length b.keyLine.before.length i c =
      if i ≤ b.below.length then
        (b.script.find? fun s => !allBlank s).map fun _ => (b.above.length + i, b.margin + c - 1)
      else none := by
  have hdrop : b.lines.drop (b.above.length + 1) = b.below ++ b.after := by
    rw [lines, ← List.drop_drop, List.drop_left]
    rfl
  rw [inBlock?, hdrop, b.block_below, b.blockIndent?_below]
  split
  · rw [if_neg (by omega)]
  · rw [if_pos (by omega), Option.map_map]
    refine Option.map_congr fun s hs => ?_
    rw [Function.comp_apply, Nat.add_sub_assoc hc]

theorem getElem?_lines {i : Nat} (hi : 0 < i) (hlast : i ≤ b.below.length) :
    b.lines[b.above.length + i]? = b.below[i - 1]? := by
  obtain ⟨j, rfl⟩ : ∃ j, i = j + 1 := ⟨i - 1, by omega⟩
  rw [lines, List.getElem?_append_right (by omega), Nat.add_sub_cancel_left,
    List.getElem?_cons_succ, List.getElem?_append_left (by omega), Nat.add_sub_cancel]

end BlockScript

/-! ## Scripts on the line of the key -/

/-- A document with a script on the line of its key. -/
structure InlineScript where
  above : List (List Char)
  keyLine : KeyLine
  after : List (List Char)
  flush : ∃ c, keyLine.value.head? = some c ∧ isBlank c = false
  unmarked : isBlockMark keyLine.value = false

def InlineScript.lines (s : InlineScript) : List (List Char) := s.above ++ s.keyLine.text :: s.after

def InlineScript.quotes (s : InlineScript) : Nat :=
  if s.keyLine.value.head? = some '"' ∨ s.keyLine.value.head? = some '\'' then 1 else 0

/-- The script, which may end in a quote. -/
def InlineScript.script (s : InlineScript) : List Char := s.keyLine.value.drop s.quotes

/-- The column at which the script begins. -/
def InlineScript.margin (s : InlineScript) : Nat :=
  s.keyLine.before.length + key.length + s.keyLine.gap.length + s.quotes

theorem openingQuotes_eq (value : List Char) :
    openingQuotes value = if value.head? = some '"' ∨ value.head? = some '\'' then 1 else 0 := by
  rw [openingQuotes.eq_def]
  split
  · rfl
  · rfl
  · next hdouble hsingle =>
    rw [if_neg]
    rintro (h | h) <;> obtain ⟨cs, hcs⟩ := List.head?_eq_some_iff.mp h
    · exact hdouble cs hcs
    · exact hsingle cs hcs

theorem InlineScript.inLine?_eq (s : InlineScript) {i c : Nat} (hc : 0 < c) :
    inLine? s.above.length s.keyLine.before.length (s.keyLine.gap ++ s.keyLine.value) i c =
      if i = 1 then some (s.above.length, s.margin + c - 1) else none := by
  obtain ⟨d, hhead, hd⟩ := s.flush
  obtain ⟨ds, hvalue⟩ := List.head?_eq_some_iff.mp hhead
  have hgap : (s.keyLine.gap ++ s.keyLine.value).length - s.keyLine.value.length =
      s.keyLine.gap.length := by rw [List.length_append, Nat.add_sub_cancel]
  rw [inLine?, trimStart_gap s.keyLine hvalue hd, hgap, openingQuotes_eq, Nat.add_sub_assoc hc]
  rfl

/-! ## Places -/

theorem place?_split {lines : List (List Char)} {statement i c : Nat}
    {text before after : List Char}
    (hline : lines[statement]? = some text) (hsplit : splitKey [] text = some (before, after))
    (hi : 0 < i) (hc : 0 < c) :
    place? lines statement i c =
      (if isBlockMark (trimStart after) then inBlock? lines statement before.length i c
        else inLine? statement before.length after i c).bind fun q => mark? lines q.1 q.2 := by
  have hnonzero : ¬ (i = 0 ∨ c = 0) := by omega
  rw [place?, if_neg hnonzero, hline]
  simp only [Option.bind_eq_bind, Option.bind_some, hsplit]
  split <;> rfl

/-- What the document has at a line and a column. -/
def charAt? (lines : List (List Char)) (line column : Nat) : Option Char :=
  lines[line]?.bind (·[column]?)

/-- `p` is the place of character `c` of line `i` of the script, both counted from one. -/
def BlockScript.At (b : BlockScript) (i c : Nat) (p : Place) : Prop :=
  i ≤ b.script.length ∧ ∃ line, b.below[i - 1]? = some line ∧ b.margin + c - 1 ≤ width line ∧
    p = { line := b.above.length + i, start := b.margin + c - 1,
          stop := max (b.margin + c) (width line) }

/-- `p` is the place of character `c` of line `i` of the script, both counted from one. -/
def InlineScript.At (s : InlineScript) (i c : Nat) (p : Place) : Prop :=
  i = 1 ∧ s.margin + c - 1 ≤ width s.keyLine.text ∧
    p = { line := s.above.length, start := s.margin + c - 1,
          stop := max (s.margin + c) (width s.keyLine.text) }

namespace BlockScript

variable (b : BlockScript) {i c : Nat} {p : Place}

theorem exists_value : ∃ d ds, b.keyLine.value = d :: ds ∧ isBlank d = false := by
  have hmark := b.mark
  rw [isBlockMark.eq_def] at hmark
  split at hmark
  · next ds hvalue => exact ⟨'|', ds, hvalue, by decide⟩
  · next ds hvalue => exact ⟨'>', ds, hvalue, by decide⟩
  · cases hmark

theorem length_below : b.below.length = b.script.length := b.embeds.length_eq.symm

theorem exists_nonblank {line : List Char} {n : Nat} (hline : b.below[n]? = some line)
    (hwidth : 0 < width line) : ∃ s, b.script.find? (fun s => !allBlank s) = some s := by
  have hsome : (b.below.find? fun line => !allBlank line).isSome = true := by
    refine List.find?_isSome.mpr ⟨line, List.mem_of_getElem? hline, ?_⟩
    cases hblank : allBlank line with
    | false => rfl
    | true =>
      rw [width_of_blank hblank] at hwidth
      exact absurd hwidth (Nat.lt_irrefl 0)
  rw [find?_embeds b.embeds, Option.isSome_map] at hsome
  exact Option.isSome_iff_exists.mp hsome

theorem place?_eq_some_iff (hi : 0 < i) (hc : 0 < c) :
    place? b.lines b.above.length i c = some p ↔ b.At i c p ∧ Fits p := by
  have hline : b.lines[b.above.length]? = some b.keyLine.text := by simp [lines]
  have hdeeper := b.deeper
  have hstop : b.margin + c - 1 + 1 = b.margin + c := by omega
  obtain ⟨d, ds, hvalue, hd⟩ := b.exists_value
  rw [place?_split hline (splitKey_text _) hi hc, trimStart_gap b.keyLine hvalue hd, if_pos b.mark,
    b.inBlock?_eq hc, b.length_below]
  constructor
  · intro h
    obtain ⟨⟨l, column⟩, hq, hmark⟩ := Option.bind_eq_some_iff.mp h
    split at hq
    · next hlast =>
      obtain ⟨s, -, hq⟩ := Option.map_eq_some_iff.mp hq
      obtain ⟨rfl, rfl⟩ := Prod.mk.inj hq
      obtain ⟨line, hat, hwidth, rfl, hfits⟩ := mark?_eq_some_iff.mp hmark
      rw [b.getElem?_lines hi (b.length_below ▸ hlast)] at hat
      exact ⟨⟨hlast, line, hat, hwidth, by rw [hstop]⟩, hfits⟩
    · cases hq
  · rintro ⟨⟨hlast, line, hat, hwidth, rfl⟩, hfits⟩
    obtain ⟨s, hs⟩ := b.exists_nonblank hat (by omega)
    rw [if_pos hlast, hs, Option.map_some, Option.bind_some]
    refine mark?_eq_some_iff.mpr ⟨line, ?_, hwidth, by rw [hstop], hfits⟩
    rw [b.getElem?_lines hi (b.length_below.symm ▸ hlast), hat]

theorem At.fits (h : b.At i c p) (hi : 0 < i) (hwords : InWords b.lines) : Fits p := by
  obtain ⟨hlast, line, hat, hwidth, rfl⟩ := h
  have hline := b.getElem?_lines hi (b.length_below.symm ▸ hlast)
  rw [hat] at hline
  have hlength := hwords.2 line (List.mem_of_getElem? hline)
  have hindex := (List.getElem?_eq_some_iff.mp hline).1
  have hlines := hwords.1
  have htrim : width line ≤ line.length := Text.length_trimEnd_le line
  exact ⟨show b.above.length + i ≤ maxWord by omega,
    show max (b.margin + c) (width line) ≤ maxWord by omega⟩

theorem At.charAt?_eq (h : b.At i c p) (hi : 0 < i) (hc : 0 < c) :
    charAt? b.lines p.line p.start = charAt? b.script (i - 1) (c - 1) := by
  obtain ⟨hlast, line, hat, hwidth, rfl⟩ := h
  have hdeeper := b.deeper
  have hline := b.getElem?_lines hi (b.length_below.symm ▸ hlast)
  obtain ⟨hi', rfl⟩ := List.getElem?_eq_some_iff.mp hat
  have hi'' : i - 1 < b.script.length := b.length_below ▸ hi'
  rw [charAt?, charAt?, hline, hat, List.getElem?_eq_getElem hi'', Option.bind_some,
    Option.bind_some]
  rcases b.embeds.get hi'' hi' with hembeds | ⟨-, hempty⟩
  · rw [List.get_eq_getElem, List.get_eq_getElem] at hembeds
    rw [hembeds, List.getElem?_append_right (by simp; omega), List.length_replicate]
    congr 1
    dsimp only
    omega
  · rw [List.get_eq_getElem] at hempty
    rw [hempty, width_of_blank rfl] at hwidth
    omega

end BlockScript

namespace InlineScript

variable (s : InlineScript) {i c : Nat} {p : Place}

theorem getElem?_lines : s.lines[s.above.length]? = some s.keyLine.text := by simp [lines]

theorem place?_eq_some_iff (hi : 0 < i) (hc : 0 < c) :
    place? s.lines s.above.length i c = some p ↔ s.At i c p ∧ Fits p := by
  have hmargin : 0 < s.margin := by
    simp only [margin, key, List.length_cons]
    omega
  have hstop : s.margin + c - 1 + 1 = s.margin + c := by omega
  obtain ⟨d, hhead, hd⟩ := s.flush
  obtain ⟨ds, hvalue⟩ := List.head?_eq_some_iff.mp hhead
  rw [place?_split s.getElem?_lines (splitKey_text _) hi hc, trimStart_gap s.keyLine hvalue hd,
    if_neg (by rw [s.unmarked]; nofun), s.inLine?_eq hc]
  constructor
  · intro h
    obtain ⟨⟨l, column⟩, hq, hmark⟩ := Option.bind_eq_some_iff.mp h
    split at hq
    · next hfirst =>
      obtain ⟨rfl, rfl⟩ := Prod.mk.inj (Option.some.inj hq)
      obtain ⟨line, hat, hwidth, rfl, hfits⟩ := mark?_eq_some_iff.mp hmark
      obtain rfl := Option.some.inj (s.getElem?_lines.symm.trans hat)
      exact ⟨⟨hfirst, hwidth, by rw [hstop]⟩, hfits⟩
    · cases hq
  · rintro ⟨⟨rfl, hwidth, rfl⟩, hfits⟩
    rw [if_pos rfl, Option.bind_some]
    exact mark?_eq_some_iff.mpr ⟨_, s.getElem?_lines, hwidth, by rw [hstop], hfits⟩

theorem At.fits (h : s.At i c p) (hwords : InWords s.lines) : Fits p := by
  obtain ⟨rfl, hwidth, rfl⟩ := h
  have hlength := hwords.2 _ (List.mem_of_getElem? s.getElem?_lines)
  have hindex := (List.getElem?_eq_some_iff.mp s.getElem?_lines).1
  have hlines := hwords.1
  have htrim : width s.keyLine.text ≤ s.keyLine.text.length := Text.length_trimEnd_le _
  exact ⟨show s.above.length ≤ maxWord by omega,
    show max (s.margin + c) (width s.keyLine.text) ≤ maxWord by omega⟩

theorem At.charAt?_eq (h : s.At i c p) (hc : 0 < c) :
    charAt? s.lines p.line p.start = s.script[c - 1]? := by
  obtain ⟨-, -, rfl⟩ := h
  rw [charAt?, s.getElem?_lines, Option.bind_some, KeyLine.text, script, List.getElem?_drop,
    List.append_assoc, List.getElem?_append_right (by simp [margin]; omega),
    List.getElem?_append_right (by simp [margin, key]; omega),
    List.getElem?_append_right (by simp [margin, key]; omega)]
  congr 1
  simp only [margin, key]
  omega

end InlineScript

/-- A place in a script is found where the script stands in the document, and it is found as long as
the line reaches up to it and 32 bits can tell it. -/
theorem found_where_written :
    (∀ (b : BlockScript) (i c : Nat), 0 < i → 0 < c →
      (∀ p, place? b.lines b.above.length i c = some p ↔ b.At i c p ∧ Fits p) ∧
      (InWords b.lines → ∀ p, place? b.lines b.above.length i c = some p ↔ b.At i c p) ∧
      ∀ p, b.At i c p → charAt? b.lines p.line p.start = charAt? b.script (i - 1) (c - 1)) ∧
    ∀ (s : InlineScript) (i c : Nat), 0 < i → 0 < c →
      (∀ p, place? s.lines s.above.length i c = some p ↔ s.At i c p ∧ Fits p) ∧
      (InWords s.lines → ∀ p, place? s.lines s.above.length i c = some p ↔ s.At i c p) ∧
      ∀ p, s.At i c p → charAt? s.lines p.line p.start = s.script[c - 1]? := by
  constructor
  · intro b i c hi hc
    refine ⟨fun p => b.place?_eq_some_iff hi hc, fun hwords p => ?_,
      fun p h => h.charAt?_eq b hi hc⟩
    rw [b.place?_eq_some_iff hi hc]
    exact ⟨And.left, fun h => ⟨h, h.fits b hi hwords⟩⟩
  · intro s i c hi hc
    refine ⟨fun p => s.place?_eq_some_iff hi hc, fun hwords p => ?_, fun p h => h.charAt?_eq s hc⟩
    rw [s.place?_eq_some_iff hi hc]
    exact ⟨And.left, fun h => ⟨h, h.fits s hwords⟩⟩

/-- The line of a step with a key. -/
def stepLine (gap value : String) (h : allBlank gap.toList = true) : KeyLine where
  before := "    - ".toList
  gap := gap.toList
  value := value.toList
  opens c hc := by
    obtain rfl : ' ' = c := Option.some.inj hc
    decide
  first u v huv := by
    have hmem : 'r' ∈ "    - ".toList := by
      rw [huv]
      simp [key]
    exact absurd hmem (by decide)
  blank := h

/-- Three lines of a script, one of them empty. -/
def threeLines : BlockScript where
  above := ["steps:".toList]
  keyLine := stepLine " " "|" (by decide)
  script := ["é=1".toList, [], "  echo $é ".toList]
  margin := 8
  below := ["        é=1".toList, [], "          echo $é ".toList]
  after := ["    - uses: x".toList]
  mark := by decide
  flush s hs c hc := by
    obtain rfl := Option.some.inj hs
    obtain rfl := Option.some.inj hc
    decide
  deeper := by decide
  embeds := .cons (.inl rfl) (.cons (.inr ⟨rfl, rfl⟩) (.cons (.inl rfl) .nil))
  ends := by decide

/-- A script in quotes. -/
def quoted : InlineScript where
  above := []
  keyLine := stepLine "  " "\"echo é\"" (by decide)
  after := []
  flush := ⟨'"', rfl, by decide⟩
  unmarked := by decide

theorem found_in_threeLines :
    place? threeLines.lines 1 3 4 = some { line := 4, start := 11, stop := 17 } ∧
      place? quoted.lines 0 1 6 = some { line := 0, start := 18, stop := 20 } := by
  refine ⟨((found_where_written.1 threeLines 3 4 (by decide) (by decide)).2.1 ?_ _).mpr ?_,
    ((found_where_written.2 quoted 1 6 (by decide) (by decide)).2.1 ?_ _).mpr ?_⟩
  · exact ⟨by decide, by decide⟩
  · exact ⟨by decide, _, rfl, by decide, by decide⟩
  · exact ⟨by decide, by decide⟩
  · exact ⟨rfl, by decide, by decide⟩

end Script

end WorkflowLint

import WorkflowLint.Lint.Diagnosis
import WorkflowLint.Proofs.Text.Words
/-!
# Reading the reports of helpers

`IsBare` says what a report without lead-in looks like, and a message is read as one iff it is of
that form (`bare?_eq_some_iff`). A report that was written with a lead-in is read back whatever its
text says. Without lead-in its text may hold what looks like another report behind a colon and a
space; then that one is read, for a reading with a lead-in goes first (`read_back_iff`).
-/

namespace WorkflowLint

namespace HelperReport

variable {cs ls rest run text line column severity code : List Char} {class_ : Char → Bool}
  {p : Parts}

/-! ## What a report looks like -/

/-- A non-empty run of characters of a class. -/
def IsRun (class_ : Char → Bool) (cs : List Char) : Prop := cs ≠ [] ∧ ∀ c ∈ cs, class_ c = true

/-- Two numbers and a text. The colon behind the second number may be missing. -/
def IsPlace (line column text cs : List Char) : Prop :=
  IsRun Text.isDigit line ∧ IsRun Text.isDigit column ∧ text ≠ [] ∧
    (cs = line ++ ':' :: (column ++ ':' :: ' ' :: text) ∨
      cs = line ++ ':' :: (column ++ ' ' :: text))

/-- A report without lead-in, with its parts. -/
inductive IsBare : Parts → List Char → Prop
  | plain {line column text cs : List Char} (h : IsPlace line column text cs) :
      IsBare { code := none, severity := [], line, column, text } cs
  | coded {digits severity line column text cs : List Char} (hdigits : IsRun Text.isDigit digits)
      (hseverity : IsRun Char.isLower severity) (h : IsPlace line column text cs) :
      IsBare { code := some ('S' :: 'C' :: digits), severity, line, column, text }
        ('S' :: 'C' :: (digits ++ ':' :: (severity ++ ':' :: cs)))

/-- A text is a report, or holds one behind a colon and a space. -/
def HoldsReport (text : List Char) : Prop :=
  ∃ before report p, ':' :: ' ' :: text = before ++ ':' :: ' ' :: report ∧ IsBare p report

/-! ## Runs -/

theorem takeWhile_run (h : IsRun class_ cs) {c : Char} (hc : class_ c = false) :
    (cs ++ c :: rest).takeWhile class_ = cs := by
  rw [List.takeWhile_append_of_pos h.2, List.takeWhile_cons_of_neg (by simp [hc]), List.append_nil]

theorem dropWhile_run (h : IsRun class_ cs) {c : Char} (hc : class_ c = false) :
    (cs ++ c :: rest).dropWhile class_ = c :: rest := by
  rw [List.dropWhile_append_of_pos h.2, List.dropWhile_cons_of_neg (by simp [hc])]

theorem isRun_takeWhile (h : cs.takeWhile class_ ≠ []) : IsRun class_ (cs.takeWhile class_) :=
  ⟨h, fun _ hc => List.mem_takeWhile_imp hc⟩

theorem runToColon?_eq_some_iff (hcolon : class_ ':' = false) :
    runToColon? class_ cs = some (run, rest) ↔ IsRun class_ run ∧ cs = run ++ ':' :: rest := by
  constructor
  · intro h
    have hsplit := List.takeWhile_append_dropWhile (p := class_) (l := cs)
    rw [runToColon?] at h
    split at h
    · next c ds rest' htake hdrop =>
      obtain ⟨rfl, rfl⟩ := Prod.mk.inj (Option.some.inj h)
      rw [htake, hdrop] at hsplit
      refine ⟨?_, hsplit.symm⟩
      rw [← htake]
      exact isRun_takeWhile (by rw [htake]; nofun)
    · cases h
  · rintro ⟨hrun, rfl⟩
    rw [runToColon?, takeWhile_run hrun hcolon, dropWhile_run hrun hcolon]
    obtain ⟨c, ds, rfl⟩ := List.exists_cons_of_ne_nil hrun.1
    rfl

theorem ne_run_append (hclear : ∀ c ∈ ls, Text.isDigit c = false) (hrun : IsRun Text.isDigit run) :
    ls ++ ':' :: cs ≠ run ++ rest := by
  obtain ⟨d, ds, rfl⟩ := List.exists_cons_of_ne_nil hrun.1
  have hd : Text.isDigit d = true := hrun.2 d List.mem_cons_self
  intro h
  cases ls with
  | nil =>
    obtain rfl : ':' = d := (List.cons.inj h).1
    revert hd
    decide
  | cons c ls =>
    obtain rfl : c = d := (List.cons.inj h).1
    rw [hclear c List.mem_cons_self] at hd
    cases hd

/-! ## Messages without lead-in -/

theorem textAfter?_eq_some_iff :
    textAfter? cs = some text ↔ text ≠ [] ∧ (cs = ':' :: ' ' :: text ∨ cs = ' ' :: text) := by
  constructor
  · intro h
    rw [textAfter?.eq_def] at h
    split at h
    · obtain rfl := Option.some.inj h
      exact ⟨nofun, .inl rfl⟩
    · obtain rfl := Option.some.inj h
      exact ⟨nofun, .inr rfl⟩
    · cases h
  · rintro ⟨htext, rfl | rfl⟩ <;> obtain ⟨c, ds, rfl⟩ := List.exists_cons_of_ne_nil htext <;> rfl

theorem place?_eq : place? cs =
    (runToColon? Text.isDigit cs).bind fun r =>
      if r.2.takeWhile Text.isDigit = [] then none
      else (textAfter? (r.2.dropWhile Text.isDigit)).map fun text =>
        (r.1, r.2.takeWhile Text.isDigit, text) := by
  rw [place?]
  refine Option.bind_congr fun r _ => ?_
  obtain ⟨line, rest⟩ := r
  dsimp only
  split
  · next h => rw [if_pos h]
  · next h => rw [if_neg h, Option.map_eq_bind]; rfl

theorem place?_eq_some_iff :
    place? cs = some (line, column, text) ↔ IsPlace line column text cs := by
  rw [place?_eq]
  constructor
  · rw [Option.bind_eq_some_iff]
    rintro ⟨⟨line', rest⟩, hline, h⟩
    obtain ⟨hrun, rfl⟩ := (runToColon?_eq_some_iff (by decide)).mp hline
    split at h
    · cases h
    next hne =>
    obtain ⟨text', htext, h⟩ := Option.map_eq_some_iff.mp h
    obtain ⟨rfl, rfl, rfl⟩ :
        line' = line ∧ rest.takeWhile Text.isDigit = column ∧ text' = text := by simpa using h
    obtain ⟨htext, hrest⟩ := textAfter?_eq_some_iff.mp htext
    have hsplit := List.takeWhile_append_dropWhile (p := Text.isDigit) (l := rest)
    refine ⟨hrun, isRun_takeWhile hne, htext, hrest.imp (fun hrest => ?_) fun hrest => ?_⟩
    all_goals rw [← hrest, hsplit]
  · rintro ⟨hline, hcolumn, htext, h⟩
    -- what stands behind the first colon, with or without the second
    obtain ⟨c, rest, hrest, hc, rfl⟩ : ∃ c rest, textAfter? (c :: rest) = some text ∧
        Text.isDigit c = false ∧ cs = line ++ ':' :: (column ++ c :: rest) := by
      rcases h with rfl | rfl
      · exact ⟨':', _, textAfter?_eq_some_iff.mpr ⟨htext, .inl rfl⟩, by decide, rfl⟩
      · exact ⟨' ', _, textAfter?_eq_some_iff.mpr ⟨htext, .inr rfl⟩, by decide, rfl⟩
    rw [(runToColon?_eq_some_iff (by decide)).mpr ⟨hline, rfl⟩, Option.bind_some,
      takeWhile_run hcolumn hc, dropWhile_run hcolumn hc, if_neg hcolumn.1, hrest, Option.map_some]

theorem code?_eq_some_iff : code? cs = some (code, severity, rest) ↔
    ∃ digits, IsRun Text.isDigit digits ∧ IsRun Char.isLower severity ∧
      code = 'S' :: 'C' :: digits ∧
      cs = 'S' :: 'C' :: (digits ++ ':' :: (severity ++ ':' :: rest)) := by
  constructor
  · intro h
    rw [code?.eq_def] at h
    split at h
    · next s =>
      obtain ⟨⟨digits, rest'⟩, hdigits, h⟩ := Option.bind_eq_some_iff.mp h
      obtain ⟨⟨severity', rest''⟩, hseverity, h⟩ := Option.bind_eq_some_iff.mp h
      obtain ⟨rfl, rfl, rfl⟩ :
          'S' :: 'C' :: digits = code ∧ severity' = severity ∧ rest'' = rest := by simpa using h
      obtain ⟨hrun, rfl⟩ := (runToColon?_eq_some_iff (by decide)).mp hdigits
      obtain ⟨hrun', rfl⟩ := (runToColon?_eq_some_iff (by decide)).mp hseverity
      exact ⟨digits, hrun, hrun', rfl, rfl⟩
    · cases h
  · rintro ⟨digits, hdigits, hseverity, rfl, rfl⟩
    have hfirst := (runToColon?_eq_some_iff (by decide)).mpr
      ⟨hdigits, Eq.refl (digits ++ ':' :: (severity ++ ':' :: rest))⟩
    have hsecond := (runToColon?_eq_some_iff (by decide)).mpr
      ⟨hseverity, Eq.refl (severity ++ ':' :: rest)⟩
    simp only [code?, hfirst, hsecond, Option.bind_eq_bind, Option.bind_some, Option.pure_def]

theorem coded?_eq_none (h : code? cs = none) : coded? cs = none := by rw [coded?, h]; rfl

theorem code?_eq_none_of_isPlace (h : IsPlace line column text cs) : code? cs = none := by
  refine Option.eq_none_iff_forall_ne_some.mpr fun ⟨code, severity, rest⟩ hcode => ?_
  obtain ⟨digits, -, -, -, hcs⟩ := code?_eq_some_iff.mp hcode
  obtain ⟨hline, -, -, hform⟩ := h
  obtain ⟨d, ds, rfl⟩ := List.exists_cons_of_ne_nil hline.1
  have hd : d = 'S' := by
    rcases hform with rfl | rfl <;> exact (List.cons.inj hcs).1
  have hdigit := hline.2 d List.mem_cons_self
  rw [hd] at hdigit
  revert hdigit
  decide

/-- A message is read as a report without lead-in iff it is one. -/
theorem bare?_eq_some_iff : bare? cs = some p ↔ IsBare p cs := by
  constructor
  · intro h
    rcases Option.or_eq_some_iff.mp (Option.orElse_eq_or.symm.trans h) with h | ⟨-, h⟩
    · obtain ⟨⟨code, severity, rest⟩, hcode, h⟩ := Option.bind_eq_some_iff.mp h
      obtain ⟨⟨line, column, text⟩, hplace, h⟩ := Option.bind_eq_some_iff.mp h
      obtain rfl := Option.some.inj h
      obtain ⟨digits, hdigits, hseverity, rfl, rfl⟩ := code?_eq_some_iff.mp hcode
      exact .coded hdigits hseverity (place?_eq_some_iff.mp hplace)
    · obtain ⟨⟨line, column, text⟩, hplace, h⟩ := Option.bind_eq_some_iff.mp h
      obtain rfl := Option.some.inj h
      exact .plain (place?_eq_some_iff.mp hplace)
  · intro h
    cases h with
    | plain hplace =>
      rw [bare?, coded?_eq_none (code?_eq_none_of_isPlace hplace), plain?,
        place?_eq_some_iff.mpr hplace]
      rfl
    | coded hdigits hseverity hplace =>
      rw [bare?, coded?, code?_eq_some_iff.mpr ⟨_, hdigits, hseverity, rfl, rfl⟩]
      dsimp only [Option.bind_eq_bind, Option.bind_some]
      rw [place?_eq_some_iff.mpr hplace]
      rfl

theorem IsBare.length_text_lt (h : IsBare p cs) : p.text.length < cs.length := by
  have hplace {line column text cs : List Char} (h : IsPlace line column text cs) :
      text.length < cs.length := by
    obtain ⟨-, -, -, rfl | rfl⟩ := h <;> simp <;> omega
  cases h with
  | plain h => exact hplace h
  | coded _ _ h =>
    have := hplace h
    simp only [List.length_cons, List.length_append]
    omega

/-! ## Messages with a lead-in -/

theorem led?_cons {c : Char} (h : c = ':' → rest.head? ≠ some ' ') :
    led? (c :: rest) = led? rest := by
  rw [led?]
  rintro rest' rfl rfl
  exact h rfl rfl

theorem exists_of_led?_eq_some (h : led? cs = some p) :
    ∃ before report, cs = before ++ ':' :: ' ' :: report ∧ IsBare p report := by
  induction cs using led?.induct with
  | case1 => cases h
  | case2 rest ih =>
    rw [led?] at h
    rcases Option.or_eq_some_iff.mp (Option.orElse_eq_or.symm.trans h) with h | ⟨-, h⟩
    · exact ⟨[], rest, rfl, bare?_eq_some_iff.mp h⟩
    · obtain ⟨before, report, hrest, hreport⟩ := ih h
      exact ⟨':' :: before, report, by rw [hrest, List.cons_append], hreport⟩
  | case3 c rest hne ih =>
    rw [led?] at h
    · obtain ⟨before, report, hrest, hreport⟩ := ih h
      exact ⟨c :: before, report, by rw [hrest, List.cons_append], hreport⟩
    · exact hne

theorem led?_isSome (before : List Char) {report : List Char} (h : IsBare p report) :
    (led? (before ++ ':' :: ' ' :: report)).isSome = true := by
  induction before with
  | nil =>
    rw [List.nil_append, led?, bare?_eq_some_iff.mpr h]
    rfl
  | cons c before ih =>
    rw [List.cons_append, led?.eq_def]
    split
    · next hrest =>
      cases hrest
    · next rest hrest =>
      obtain ⟨-, hrest⟩ := List.cons.inj hrest
      rw [hrest] at ih
      cases hbare : bare? rest with
      | none => exact ih
      | some p => rfl
    · next hrest =>
      obtain ⟨-, hrest⟩ := List.cons.inj hrest
      rwa [← hrest]

theorem led?_word_append (h : ' ' ∉ ls) : led? (ls ++ ':' :: cs) = led? (':' :: cs) := by
  induction ls with
  | nil => rfl
  | cons c ls ih =>
    have hls := List.not_mem_of_not_mem_cons h
    rw [List.cons_append, led?_cons, ih hls]
    cases ls with
    | nil => simp
    | cons d ls => simp [(List.ne_of_not_mem_cons hls).symm]

theorem bare?_clear (hclear : ∀ c ∈ ls, Text.isDigit c = false) :
    bare? (ls ++ ':' :: cs) = none := by
  refine Option.eq_none_iff_forall_ne_some.mpr fun p h => ?_
  have hplace {ls line column text cs' : List Char} (hclear : ∀ c ∈ ls, Text.isDigit c = false)
      (h : IsPlace line column text cs') : ls ++ ':' :: cs ≠ cs' := by
    obtain ⟨hline, -, -, rfl | rfl⟩ := h <;> exact ne_run_append hclear hline
  generalize hcs' : ls ++ ':' :: cs = cs' at h
  cases bare?_eq_some_iff.mp h with
  | plain h => exact hplace hclear h hcs'
  | coded hdigits =>
    -- the letters before the digits have to come from the part without digits
    match ls, hclear, hcs' with
    | [], _, hcs' => cases hcs'
    | [_], _, hcs' => cases hcs'
    | _ :: _ :: ls, hclear, hcs' =>
      exact ne_run_append (fun c hc => hclear c (by simp [hc])) hdigits
        (List.cons.inj (List.cons.inj hcs').2).2

/-- Without digits before it, the report behind a colon and a space is the first to be read. -/
theorem led?_clear (hclear : ∀ c ∈ ls, Text.isDigit c = false) (h : bare? cs = some p) :
    led? (ls ++ ':' :: ' ' :: cs) = some p := by
  induction ls with
  | nil =>
    rw [List.nil_append, led?, h]
    rfl
  | cons c ls ih =>
    have hls := ih fun c hc => hclear c (List.mem_cons_of_mem _ hc)
    by_cases hspace : c = ':' ∧ ls.head? = some ' '
    · obtain ⟨rfl, hspace⟩ := hspace
      obtain ⟨ls', rfl⟩ := List.head?_eq_some_iff.mp hspace
      rw [List.cons_append, List.cons_append, led?, bare?_clear fun c hc => hclear c (by simp [hc])]
      exact hls
    · rw [List.cons_append, led?_cons, hls]
      rintro rfl hhead
      cases ls with
      | nil => cases hhead
      | cons d ls => exact hspace ⟨rfl, hhead⟩

/-! ## Reports as they are written -/

theorem number?_toDigits {n : Nat} (h : n < 0x100000000) :
    number? (Nat.toDigits 10 n) = some n := by
  have hdigits : (Nat.toDigits 10 n).all Char.isDigit = true :=
    List.all_eq_true.mpr fun _ hc => Nat.isDigit_of_mem_toDigits (by decide) (by decide) hc
  have hvalue := Text.value_digits 0 n
  rw [List.replicate_zero, List.nil_append] at hvalue
  rw [number?, if_pos hdigits, hvalue, if_pos h]

/-- What a helper writes about a place of a script, and what the tool puts before it: nothing, or a
text without digits that ends in a colon and a space. -/
structure Written where
  leadIn : List Char
  digits : List Char
  severity : List Char
  line : Nat
  column : Nat
  text : List Char
  leadIn_end : leadIn = [] ∨ ∃ before, leadIn = before ++ [':', ' ']
  leadIn_clear : ∀ c ∈ leadIn, Text.isDigit c = false
  leadIn_line : '\n' ∉ leadIn
  digits_run : IsRun Char.isDigit digits
  severity_run : IsRun Char.isLower severity
  line_lt : line < 0x100000000
  column_lt : column < 0x100000000
  text_ne : text ≠ []
  text_trim : Text.trim text = text
  text_line : '\n' ∉ text

namespace Written

variable (w : Written)

def place : List Char :=
  'S' :: 'C' :: (w.digits ++ ':' :: (w.severity ++ ':' :: (Nat.toDigits 10 w.line ++
    ':' :: Nat.toDigits 10 w.column)))

def message : List Char := w.leadIn ++ (w.place ++ ':' :: ' ' :: w.text)

def parts : Parts where
  code := some ('S' :: 'C' :: w.digits)
  severity := w.severity
  line := Nat.toDigits 10 w.line
  column := Nat.toDigits 10 w.column
  text := w.text

def report : HelperReport where
  code := some (String.ofList ('S' :: 'C' :: w.digits))
  severity := severity? w.severity
  line := w.line
  column := w.column
  text := String.ofList w.text

theorem isRun_toDigits (n : Nat) : IsRun Text.isDigit (Nat.toDigits 10 n) :=
  ⟨Nat.toDigits_ne_nil, fun _ hc =>
    Text.isDigit_of_ascii (Nat.isDigit_of_mem_toDigits (by decide) (by decide) hc)⟩

theorem isBare : IsBare w.parts (w.place ++ ':' :: ' ' :: w.text) := by
  have hplace : IsPlace w.parts.line w.parts.column w.text (Nat.toDigits 10 w.line ++
      ':' :: (Nat.toDigits 10 w.column ++ ':' :: ' ' :: w.text)) :=
    ⟨isRun_toDigits _, isRun_toDigits _, w.text_ne, .inl rfl⟩
  have hdigits : IsRun Text.isDigit w.digits :=
    ⟨w.digits_run.1, fun c hc => Text.isDigit_of_ascii (w.digits_run.2 c hc)⟩
  have h : IsBare w.parts _ := .coded hdigits w.severity_run hplace
  simpa only [place, List.cons_append, List.append_assoc] using h

theorem not_mem_place {c : Char} (hdigit : c.isDigit = false) (hlower : c.isLower = false)
    (hmarks : c ∉ ['S', 'C', ':']) : c ∉ w.place := by
  have hrun {class_ : Char → Bool} {run : List Char} (hc : class_ c = false)
      (h : ∀ c ∈ run, class_ c = true) : c ∉ run := fun hmem => by simp [h c hmem] at hc
  have hnumber (n : Nat) : c ∉ Nat.toDigits 10 n :=
    hrun hdigit fun _ => Nat.isDigit_of_mem_toDigits (by decide) (by decide)
  simp only [List.mem_cons, List.not_mem_nil, or_false, not_or] at hmarks
  simp [place, hmarks, hrun hdigit w.digits_run.2, hrun hlower w.severity_run.2, hnumber]

theorem newline_not_mem_message : '\n' ∉ w.message := by
  have hplace := w.not_mem_place (c := '\n') (by decide) (by decide) (by decide)
  simp [message, w.leadIn_line, w.text_line, hplace]

theorem trimEnd_message : Text.trimEnd w.message = w.message := by
  obtain ⟨c, ds, hc, htext⟩ : ∃ c ds, Text.isBlank c = false ∧ w.text = c :: Text.trimEnd ds := by
    rcases Text.blank_or_split w.text with hblank | ⟨bs, c, ds, hbs, hc, htext⟩
    · exact absurd (w.text_trim.symm.trans (Text.trim_of_blank hblank)) w.text_ne
    · exact ⟨c, ds, hc, by rw [← Text.trim_split hbs hc, ← htext, w.text_trim]⟩
  have hmessage : w.message =
      (w.leadIn ++ (w.place ++ [':', ' '])) ++ c :: Text.trimEnd ds := by simp [message, htext]
  rw [hmessage, Text.trimEnd_append_cons hc, Text.trimEnd_trimEnd]

theorem parts?_message : parts? w.message = (led? w.message <|> bare? w.message) := by
  rw [parts?, if_neg (by simpa using w.newline_not_mem_message)]

theorem parts?_of_leadIn (h : w.leadIn ≠ []) : parts? w.message = some w.parts := by
  obtain ⟨before, hbefore⟩ := w.leadIn_end.resolve_left h
  have hclear : ∀ c ∈ before, Text.isDigit c = false := fun c hc =>
    w.leadIn_clear c (by rw [hbefore]; exact List.mem_append_left _ hc)
  have hled := led?_clear hclear (bare?_eq_some_iff.mpr w.isBare)
  rw [parts?_message, message, hbefore, List.append_assoc, List.cons_append, List.singleton_append,
    hled]
  rfl

/-- Without lead-in another report in the text comes first. -/
theorem parts?_of_bare (h : w.leadIn = []) :
    parts? w.message = (led? (':' :: ' ' :: w.text)).or (some w.parts) := by
  have hspace := w.not_mem_place (c := ' ') (by decide) (by decide) (by decide)
  rw [parts?_message, message, h, List.nil_append, led?_word_append hspace,
    bare?_eq_some_iff.mpr w.isBare, Option.orElse_eq_orElse, Option.orElse_eq_or]

theorem parts?_of_clear (h : w.leadIn ≠ [] ∨ ¬ HoldsReport w.text) :
    parts? w.message = some w.parts := by
  by_cases hlead : w.leadIn = []
  · have hled : led? (':' :: ' ' :: w.text) = none := by
      refine Option.eq_none_iff_forall_ne_some.mpr fun p hp => ?_
      obtain ⟨before, report, htext, hreport⟩ := exists_of_led?_eq_some hp
      exact h.resolve_left (not_not_intro hlead) ⟨before, report, p, htext, hreport⟩
    rw [w.parts?_of_bare hlead, hled, Option.none_or]
  · exact w.parts?_of_leadIn hlead

theorem exists_parts?_of_holdsReport (hlead : w.leadIn = []) (h : HoldsReport w.text) :
    ∃ p, parts? w.message = some p ∧ p.text.length < w.text.length := by
  obtain ⟨before, report, p, htext, hreport⟩ := h
  have hread := led?_isSome before hreport
  rw [← htext] at hread
  obtain ⟨q, hq⟩ := Option.isSome_iff_exists.mp hread
  refine ⟨q, by rw [w.parts?_of_bare hlead, hq, Option.some_or], ?_⟩
  obtain ⟨before', report', htext', hreport'⟩ := exists_of_led?_eq_some hq
  have hlength := congrArg List.length htext'
  have hshort := hreport'.length_text_lt
  simp only [List.length_append, List.length_cons] at hlength
  omega

theorem parse?_of_parts (h : parts? w.message = some w.parts) :
    parse? w.message = some w.report := by
  rw [parse?, trimEnd_message, h]
  simp only [Option.bind_eq_bind, Option.bind_some, parts, number?_toDigits w.line_lt,
    number?_toDigits w.column_lt, w.text_trim]
  split
  · next htext => exact absurd htext w.text_ne
  · rfl

end Written

theorem exists_of_parse?_eq_some {r : HelperReport} (h : parse? cs = some r) :
    ∃ p, parts? (Text.trimEnd cs) = some p ∧ r.text = String.ofList (Text.trim p.text) := by
  obtain ⟨p, hp, h⟩ := Option.bind_eq_some_iff.mp h
  obtain ⟨line, -, h⟩ := Option.bind_eq_some_iff.mp h
  obtain ⟨column, -, h⟩ := Option.bind_eq_some_iff.mp h
  refine ⟨p, hp, ?_⟩
  split at h
  · cases h
  · obtain rfl := Option.some.inj h
    rfl

namespace Written

variable (w : Written)

theorem text_ne_of_parse? {r : HelperReport} (hlead : w.leadIn = []) (h : HoldsReport w.text)
    (hr : parse? w.message = some r) : r.text ≠ String.ofList w.text := by
  obtain ⟨p, hp, hshort⟩ := w.exists_parts?_of_holdsReport hlead h
  obtain ⟨q, hq, htext⟩ := exists_of_parse?_eq_some hr
  rw [trimEnd_message, hp] at hq
  obtain rfl := Option.some.inj hq
  rw [htext]
  intro heq
  have hlength := congrArg List.length (String.ofList_injective heq)
  have htrim := Text.length_trim_le p.text
  omega

end Written

def Written.finding (w : Written) (f : Finding) : Finding :=
  { f with kind := shellcheckKind, message := String.ofList w.message }

theorem Written.report?_finding (w : Written) (f : Finding) :
    (w.finding f).report? = parse? w.message := by
  have hhelper : (w.finding f).isHelpers = true := by simp [finding, Finding.isHelpers]
  rw [Finding.report?, if_pos hhelper, finding, String.toList_ofList]

/-- A report that was written with a lead-in is read back, and the diagnostic of the finding has its
text and its code. Without lead-in this is so iff the text holds no report. -/
theorem read_back_iff (w : Written) :
    (parse? w.message = some w.report ↔ w.leadIn ≠ [] ∨ ¬ HoldsReport w.text) ∧
      ∀ (chosen : Table String Severity) (lines : Option (List (List Char))) (f : Finding),
        (((w.finding f).diagnose chosen lines).message = String.ofList w.text ∧
            ((w.finding f).diagnose chosen lines).code =
              "shellcheck:" ++ String.ofList ('S' :: 'C' :: w.digits)) ↔
          w.leadIn ≠ [] ∨ ¬ HoldsReport w.text := by
  have hread (h : w.leadIn ≠ [] ∨ ¬ HoldsReport w.text) : parse? w.message = some w.report :=
    w.parse?_of_parts (w.parts?_of_clear h)
  refine ⟨⟨fun h => ?_, hread⟩, fun chosen lines f => ?_⟩
  · by_contra hcond
    obtain ⟨hlead, hholds⟩ := not_or.mp hcond
    exact w.text_ne_of_parse? (not_not.mp hlead) (not_not.mp hholds) h rfl
  · have hreport := w.report?_finding f
    constructor
    · rintro ⟨hmessage, -⟩
      by_contra hcond
      obtain ⟨hlead, hholds⟩ := not_or.mp hcond
      rw [Finding.message_diagnose, Finding.text, hreport] at hmessage
      cases hparse : parse? w.message with
      | some r =>
        rw [hparse] at hmessage
        exact w.text_ne_of_parse? (not_not.mp hlead) (not_not.mp hholds) hparse hmessage
      | none =>
        rw [hparse] at hmessage
        -- unread, the message is longer than the text in it
        have hlength := congrArg List.length (String.ofList_injective hmessage)
        simp [Written.message, Written.place] at hlength
        omega
    · intro h
      rw [hread h] at hreport
      rw [Finding.message_diagnose, Finding.code_diagnose, Finding.text, Finding.code, hreport]
      exact ⟨rfl, rfl⟩

/-- A report about line 1 and column 5 of a script, whose text names a place. -/
def nested : Written where
  leadIn := []
  digits := "2086".toList
  severity := "info".toList
  line := 1
  column := 5
  text := "see: 1:2: x".toList
  leadIn_end := .inl rfl
  leadIn_clear := nofun
  leadIn_line := by decide
  digits_run := ⟨by decide, List.all_eq_true.mp (by decide)⟩
  severity_run := ⟨by decide, List.all_eq_true.mp (by decide)⟩
  line_lt := by decide
  column_lt := by decide
  text_ne := by decide
  text_trim := by decide
  text_line := by decide

/-- The same report as the tool brings it. -/
def introduced : Written :=
  { nested with
    leadIn := "shellcheck reported issue in this script: ".toList
    leadIn_end := .inr ⟨"shellcheck reported issue in this script".toList, rfl⟩
    leadIn_clear := List.forall_iff_forall_mem.mp (by decide)
    leadIn_line := by decide }

/-- Behind a lead-in the place in the text does not come first. -/
theorem introduced_read_back :
    String.ofList introduced.message =
        "shellcheck reported issue in this script: SC2086:info:1:5: see: 1:2: x" ∧
      introduced.leadIn ≠ [] ∧ HoldsReport introduced.text ∧
      parse? introduced.message = some introduced.report ∧
      ∀ (chosen : Table String Severity) (lines : Option (List (List Char))) (f : Finding),
        ((introduced.finding f).diagnose chosen lines).message = "see: 1:2: x" ∧
          ((introduced.finding f).diagnose chosen lines).code = "shellcheck:SC2086" := by
  have hlead : introduced.leadIn ≠ [] ∨ ¬HoldsReport introduced.text := .inl (by decide)
  have hread := read_back_iff introduced
  refine ⟨by decide, by decide, ?_, hread.1.mpr hlead, fun chosen lines f => ?_⟩
  · exact ⟨": see".toList, "1:2: x".toList, _, rfl, bare?_eq_some_iff.mp rfl⟩
  · exact (hread.2 chosen lines f).mpr hlead

/-- The place in its text is taken for the place of the report. -/
theorem nested_misread :
    String.ofList nested.message = "SC2086:info:1:5: see: 1:2: x" ∧
      parse? nested.message ≠ some nested.report ∧
      ∀ (chosen : Table String Severity) (lines : Option (List (List Char))) (f : Finding),
        ((nested.finding f).diagnose chosen lines).message = "x" ∧
          ((nested.finding f).diagnose chosen lines).code = "shellcheck" := by
  have hparse : parse? nested.message =
      some { code := none, severity := none, line := 1, column := 2, text := "x" } := by decide
  refine ⟨by decide, by rw [hparse]; decide, fun chosen lines f => ?_⟩
  have hreport := (nested.report?_finding f).trans hparse
  rw [Finding.message_diagnose, Finding.code_diagnose, Finding.text, Finding.code, hreport]
  exact ⟨rfl, rfl⟩

end HelperReport

end WorkflowLint

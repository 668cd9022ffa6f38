import WorkflowLint.Proofs.Lint.HelperReports
import Mathlib.Data.List.Forall2
/-!
# What a diagnostic says, and how severe it is

A message is read as the report behind the shortest lead-in that leaves one, and as a report without
lead-in when none does (`parts?_eq_some_iff`). `Finding.Reports` says so of a finding without the
reader. The severity is decided by four sources in order, `Finding.Ranks`; the message and the code
are those of the report or those of the finding. None of this looks at the text of the document, and
the severities chosen decide nothing else (`ranked_and_worded`).
-/

namespace WorkflowLint

namespace HelperReport

variable {cs : List Char} {p : Parts} {r : HelperReport}

/-! ## What a message is read as -/

/-- The parts a text is read as: those behind the shortest lead-in that leaves a report, or those of
the whole when no lead-in does. -/
inductive IsFirst : Parts → List Char → Prop
  | led {p : Parts} {before report : List Char} (h : IsBare p report)
      (hfirst : ∀ before' report' q, before ++ ':' :: ' ' :: report =
        before' ++ ':' :: ' ' :: report' → IsBare q report' → before.length ≤ before'.length) :
      IsFirst p (before ++ ':' :: ' ' :: report)
  | whole {p : Parts} {cs : List Char} (h : IsBare p cs)
      (hnone : ∀ before report q, cs = before ++ ':' :: ' ' :: report → ¬ IsBare q report) :
      IsFirst p cs

/-- What the parts of a report stand for. Its numbers have ASCII digits and 32 bits, and its text is
not blank. -/
structure Parts.Means (p : Parts) (r : HelperReport) : Prop where
  line : number? p.line = some r.line
  column : number? p.column = some r.column
  text : r.text = String.ofList (Text.trim p.text)
  text_ne : Text.trim p.text ≠ []
  code : r.code = p.code.map String.ofList
  severity : r.severity = if p.code.isSome then severity? p.severity else none

/-- A message is a report: on one line, and up to the blanks at its end. -/
def IsReport (message : List Char) (r : HelperReport) : Prop :=
  '\n' ∉ Text.trimEnd message ∧ ∃ p, IsFirst p (Text.trimEnd message) ∧ p.Means r

theorem IsBare.eq {q : Parts} (hp : IsBare p cs) (hq : IsBare q cs) : p = q :=
  Option.some.inj ((bare?_eq_some_iff.mpr hp).symm.trans (bare?_eq_some_iff.mpr hq))

/-- The lead-in that is taken off is the shortest one. -/
theorem exists_first_of_led? (h : led? cs = some p) :
    ∃ before report, cs = before ++ ':' :: ' ' :: report ∧ IsBare p report ∧
      ∀ before' report' q, cs = before' ++ ':' :: ' ' :: report' → IsBare q report' →
        before.length ≤ before'.length := by
  induction cs using led?.induct with
  | case1 => cases h
  | case2 rest ih =>
    rw [led?] at h
    rcases Option.or_eq_some_iff.mp (Option.orElse_eq_or.symm.trans h) with h | ⟨hbare, h⟩
    · exact ⟨[], rest, rfl, bare?_eq_some_iff.mp h, fun _ _ _ _ _ => Nat.zero_le _⟩
    · obtain ⟨before, report, hrest, hreport, hfirst⟩ := ih h
      refine ⟨':' :: before, report, by rw [hrest, List.cons_append], hreport, ?_⟩
      intro before' report' q hsplit hq
      cases before' with
      | nil =>
        -- the lead-in of two characters leaves no report
        obtain rfl : rest = report' := by simpa using hsplit
        rw [bare?_eq_some_iff.mpr hq] at hbare
        cases hbare
      | cons c before' =>
        exact Nat.succ_le_succ (hfirst before' report' q (List.cons.inj hsplit).2 hq)
  | case3 c rest hne ih =>
    rw [led?] at h
    · obtain ⟨before, report, hrest, hreport, hfirst⟩ := ih h
      refine ⟨c :: before, report, by rw [hrest, List.cons_append], hreport, ?_⟩
      intro before' report' q hsplit hq
      cases before' with
      | nil => exact (hne report' (List.cons.inj hsplit).1 (List.cons.inj hsplit).2).elim
      | cons d before' =>
        exact Nat.succ_le_succ (hfirst before' report' q (List.cons.inj hsplit).2 hq)
    · exact hne

theorem led?_eq_none_iff :
    led? cs = none ↔ ∀ before report q, cs = before ++ ':' :: ' ' :: report → ¬ IsBare q report := by
  constructor
  · rintro h before report q rfl hq
    have hsome := led?_isSome before hq
    rw [h] at hsome
    cases hsome
  · intro h
    refine Option.eq_none_iff_forall_ne_some.mpr fun p hp => ?_
    obtain ⟨before, report, hsplit, hreport⟩ := exists_of_led?_eq_some hp
    exact h before report p hsplit hreport

theorem parts?_eq_some_iff : parts? cs = some p ↔ '\n' ∉ cs ∧ IsFirst p cs := by
  have hread : (led? cs <|> bare? cs) = some p ↔ IsFirst p cs := by
    rw [Option.orElse_eq_orElse, Option.orElse_eq_or, Option.or_eq_some_iff]
    constructor
    · rintro (h | ⟨hnone, h⟩)
      · obtain ⟨before, report, rfl, hreport, hfirst⟩ := exists_first_of_led? h
        exact .led hreport hfirst
      · exact .whole (bare?_eq_some_iff.mp h) (led?_eq_none_iff.mp hnone)
    · rintro (⟨h, hfirst⟩ | ⟨h, hnone⟩)
      · next before report =>
        obtain ⟨q, hq⟩ := Option.isSome_iff_exists.mp (led?_isSome before h)
        obtain ⟨before', report', hsplit, hreport, hfirst'⟩ := exists_first_of_led? hq
        -- two shortest lead-ins are one
        have hlength := Nat.le_antisymm (hfirst _ _ _ hsplit hreport) (hfirst' _ _ _ rfl h)
        obtain ⟨-, htail⟩ := List.append_inj hsplit hlength
        obtain rfl : report = report' := by simpa using htail
        exact .inl (by rw [hq, hreport.eq h])
      · exact .inr ⟨led?_eq_none_iff.mpr hnone, bare?_eq_some_iff.mpr h⟩
  rw [parts?]
  by_cases hline : '\n' ∈ cs
  · rw [if_pos (by simpa using hline)]
    simp [hline]
  · rw [if_neg (by simpa using hline), hread]
    simp [hline]

theorem parse?_eq_some_iff {message : List Char} :
    parse? message = some r ↔ IsReport message r := by
  rw [IsReport]
  constructor
  · intro h
    obtain ⟨p, hp, h⟩ := Option.bind_eq_some_iff.mp h
    obtain ⟨line, hline, h⟩ := Option.bind_eq_some_iff.mp h
    obtain ⟨column, hcolumn, h⟩ := Option.bind_eq_some_iff.mp h
    obtain ⟨hone, hfirst⟩ := parts?_eq_some_iff.mp hp
    split at h
    · cases h
    · next htext =>
      obtain rfl := Option.some.inj h
      exact ⟨hone, p, hfirst, hline, hcolumn, rfl, htext, rfl, rfl⟩
  · rintro ⟨hone, p, hfirst, hmeans⟩
    rw [parse?, parts?_eq_some_iff.mpr ⟨hone, hfirst⟩]
    simp only [Option.bind_eq_bind, Option.bind_some, hmeans.line, hmeans.column]
    split
    · next htext => exact absurd htext hmeans.text_ne
    · obtain ⟨code, severity, line, column, text⟩ := r
      obtain ⟨-, -, htext, -, hcode, hseverity⟩ := hmeans
      dsimp only at htext hcode hseverity
      rw [htext, hcode, hseverity]
      rfl

/-! ## Where the text of a report stands -/

theorem IsBare.text_suffix (h : IsBare p cs) : p.text ≠ [] ∧ p.text <:+ cs := by
  have hplace {line column text cs : List Char} (h : IsPlace line column text cs) :
      text ≠ [] ∧ text <:+ cs := by
    obtain ⟨-, -, htext, rfl | rfl⟩ := h
    · exact ⟨htext, line ++ ':' :: (column ++ [':', ' ']), by simp⟩
    · exact ⟨htext, line ++ ':' :: (column ++ [' ']), by simp⟩
  cases h with
  | plain h => exact hplace h
  | @coded digits severity line column text cs _ _ h =>
    obtain ⟨htext, hsuffix⟩ := hplace h
    refine ⟨htext, hsuffix.trans ⟨'S' :: 'C' :: (digits ++ ':' :: (severity ++ [':'])), ?_⟩⟩
    simp

theorem IsFirst.text_suffix (h : IsFirst p cs) : p.text ≠ [] ∧ p.text <:+ cs := by
  cases h with
  | @led before report h _ =>
    obtain ⟨htext, hsuffix⟩ := h.text_suffix
    exact ⟨htext, hsuffix.trans ⟨before ++ [':', ' '], by simp⟩⟩
  | whole h _ => exact h.text_suffix

theorem IsReport.text_spec {message : List Char} (h : IsReport message r) :
    r.text ≠ "" ∧ Text.trimmed r.text = r.text ∧ r.text.toList <:+ Text.trimEnd message := by
  obtain ⟨-, p, hfirst, hmeans⟩ := h
  have hsuffix := Text.trim_suffix hfirst.text_suffix.2
  rw [hmeans.text, Text.trimmed, String.toList_ofList, Text.trim_trim]
  refine ⟨fun h => hmeans.text_ne ?_, rfl, hsuffix⟩
  exact String.ofList_injective h

end HelperReport

namespace Finding

variable {f : Finding} {chosen : Table String Severity} {lines : Option (List (List Char))}

/-! ## Findings of helpers -/

/-- A finding of a helper whose message is a report. -/
def Reports (f : Finding) (r : HelperReport) : Prop :=
  (f.kind = "shellcheck" ∨ f.kind = "pyflakes") ∧ HelperReport.IsReport f.message.toList r

theorem isHelpers_iff : f.isHelpers = true ↔ f.kind = "shellcheck" ∨ f.kind = "pyflakes" := by
  rw [isHelpers, Bool.or_eq_true, decide_eq_true_eq, decide_eq_true_eq, shellcheckKind,
    pyflakesKind]

theorem report?_eq_some_iff {r : HelperReport} : f.report? = some r ↔ f.Reports r := by
  rw [report?, Reports, ← isHelpers_iff, ← HelperReport.parse?_eq_some_iff]
  split
  · next h => rw [and_iff_right h]
  · next h => exact iff_of_false (Option.some_ne_none r).symm fun hand => h hand.1

theorem report?_eq_none_iff : f.report? = none ↔ ∀ r, ¬ f.Reports r := by
  simp only [← report?_eq_some_iff, Option.eq_none_iff_forall_ne_some, ne_eq]

/-! ## Severities -/

/-- The severity of a finding: the one chosen for its kind; else the one that a report of shellcheck
names; else the usual one of its kind; else error. -/
inductive Ranks (chosen : Table String Severity) (f : Finding) : Severity → Prop
  | chosen {s : Severity} (h : chosen.get? f.kind = some s) : Ranks chosen f s
  | reported {s : Severity} {r : HelperReport} (hchosen : chosen.get? f.kind = none)
      (hkind : f.kind = "shellcheck") (h : f.Reports r) (hs : r.severity = some s) :
      Ranks chosen f s
  | usual {s : Severity} (hchosen : chosen.get? f.kind = none)
      (hreported : f.kind = "shellcheck" → ∀ r, f.Reports r → r.severity = none)
      (h : usualSeverity? f.kind = some s) : Ranks chosen f s
  | unknown (hchosen : chosen.get? f.kind = none)
      (hreported : f.kind = "shellcheck" → ∀ r, f.Reports r → r.severity = none)
      (h : usualSeverity? f.kind = none) : Ranks chosen f .error

def reported? (f : Finding) : Option Severity :=
  if f.kind = shellcheckKind then f.report?.bind (·.severity) else none

theorem severity_eq (chosen : Table String Severity) (f : Finding) :
    f.severity chosen =
      ((chosen.get? f.kind).or (f.reported?.or (usualSeverity? f.kind))).getD .error := rfl

theorem reported?_eq_some_iff {s : Severity} : f.reported? = some s ↔
    f.kind = "shellcheck" ∧ ∃ r, f.Reports r ∧ r.severity = some s := by
  rw [reported?, shellcheckKind]
  split
  · next h =>
    rw [Option.bind_eq_some_iff, and_iff_right h]
    simp only [report?_eq_some_iff]
  · next h => exact iff_of_false nofun fun hand => h hand.1

theorem reported?_eq_none_iff : f.reported? = none ↔
    (f.kind = "shellcheck" → ∀ r, f.Reports r → r.severity = none) := by
  simp only [Option.eq_none_iff_forall_ne_some, ne_eq, reported?_eq_some_iff]
  grind

theorem ranks_severity (chosen : Table String Severity) (f : Finding) :
    f.Ranks chosen (f.severity chosen) := by
  rw [severity_eq]
  cases hchosen : chosen.get? f.kind with
  | some s => exact .chosen hchosen
  | none =>
    cases hreported : f.reported? with
    | some s =>
      obtain ⟨hkind, r, hr, hs⟩ := reported?_eq_some_iff.mp hreported
      exact .reported hchosen hkind hr hs
    | none =>
      have hnone := reported?_eq_none_iff.mp hreported
      cases husual : usualSeverity? f.kind with
      | some s => exact .usual hchosen hnone husual
      | none => exact .unknown hchosen hnone husual

theorem Ranks.eq {s : Severity} (h : f.Ranks chosen s) : f.severity chosen = s := by
  rw [severity_eq]
  cases h with
  | chosen h => rw [h]; rfl
  | reported hchosen hkind h hs =>
    rw [hchosen, reported?_eq_some_iff.mpr ⟨hkind, _, h, hs⟩]
    rfl
  | usual hchosen hreported h =>
    rw [hchosen, reported?_eq_none_iff.mpr hreported, h]
    rfl
  | unknown hchosen hreported h =>
    rw [hchosen, reported?_eq_none_iff.mpr hreported, h]
    rfl

theorem severity_eq_iff {s : Severity} : f.severity chosen = s ↔ f.Ranks chosen s :=
  ⟨fun h => h ▸ f.ranks_severity chosen, Ranks.eq⟩

/-! ## Messages and codes -/

/-- What a diagnostic says of a finding: what a helper reported, under its kind and the report's own
code; or else what the finding says. -/
structure Worded (f : Finding) (d : Diagnostic) : Prop where
  verbatim : (∀ r, ¬ f.Reports r) → d.message = f.message ∧ d.code = f.kind
  reported : ∀ r, f.Reports r → d.message = r.text ∧ d.message ≠ "" ∧
    Text.trimmed d.message = d.message ∧
    d.message.toList <:+ Text.trimEnd f.message.toList ∧
    (r.code = none ∧ d.code = f.kind ∨ ∃ c, r.code = some c ∧ d.code = f.kind ++ ":" ++ c)

theorem worded_diagnose (chosen : Table String Severity) (lines : Option (List (List Char)))
    (f : Finding) : f.Worded (f.diagnose chosen lines) := by
  constructor
  · intro h
    have hreport := report?_eq_none_iff.mpr h
    rw [message_diagnose, code_diagnose, text, code, hreport]
    exact ⟨rfl, rfl⟩
  · intro r hr
    have hreport := report?_eq_some_iff.mpr hr
    have hmessage : (f.diagnose chosen lines).message = r.text := by
      rw [message_diagnose, text, hreport]
      rfl
    obtain ⟨hne, htrim, hsuffix⟩ := hr.2.text_spec
    rw [code_diagnose, code, hreport, hmessage, Option.bind_some]
    refine ⟨rfl, hne, htrim, hsuffix, ?_⟩
    cases hcode : r.code with
    | none => exact .inl ⟨rfl, rfl⟩
    | some c => exact .inr ⟨c, rfl, rfl⟩

theorem severity_diagnose (chosen : Table String Severity) (lines : Option (List (List Char)))
    (f : Finding) : (f.diagnose chosen lines).severity = f.severity chosen := rfl

theorem diagnose_chosen (chosen chosen' : Table String Severity)
    (lines : Option (List (List Char))) (f : Finding) :
    { f.diagnose chosen' lines with severity := f.severity chosen } = f.diagnose chosen lines := rfl

end Finding

theorem diagnoseAll_singleton (chosen : Table String Severity) (text : Option String)
    (f : Finding) : diagnoseAll chosen text [f] =
      [f.diagnose chosen (text.map fun s => Text.lines s.toList)] := by
  rw [diagnoseAll, List.map_singleton]

/-- **What decides the severity, the message and the code of a diagnostic.** The severity is that of
the first of four sources that has one. The message and the code are those of the finding, or those
of the report when a helper's message is one; then the message is the end of the finding's. All three
are the same whatever the text of the document is, and the severities chosen decide nothing but the
severity. -/
theorem ranked_and_worded (chosen : Table String Severity) (text : Option String)
    (fs : List Finding) :
    List.Forall₂ (fun f d => (∀ s, d.severity = s ↔ f.Ranks chosen s) ∧ f.Worded d ∧
        (∀ text', ∃ d', diagnoseAll chosen text' [f] = [d'] ∧ d'.severity = d.severity ∧
          d'.message = d.message ∧ d'.code = d.code) ∧
        ∀ chosen', ∃ d', diagnoseAll chosen' text [f] = [d'] ∧
          { d' with severity := d.severity } = d)
      fs (diagnoseAll chosen text fs) := by
  rw [diagnoseAll, List.forall₂_map_right_iff, List.forall₂_same]
  intro f _
  refine ⟨fun s => Finding.severity_eq_iff, f.worded_diagnose chosen _, fun text' => ?_,
    fun chosen' => ?_⟩
  · refine ⟨_, diagnoseAll_singleton chosen text' f, ?_, ?_, ?_⟩
    · rw [Finding.severity_diagnose, Finding.severity_diagnose]
    · rw [Finding.message_diagnose, Finding.message_diagnose]
    · rw [Finding.code_diagnose, Finding.code_diagnose]
  · refine ⟨_, diagnoseAll_singleton chosen' text f, ?_⟩
    rw [Finding.severity_diagnose, Finding.diagnose_chosen]

example : (diagnoseAll ⟨[("glob", .hint)]⟩ (some "on: push")
    [{ message := "in this script: SC2086:info:1:6: x ", kind := "shellcheck" },
      { message := "1:2: x ", kind := "glob" }]).map
      (fun d => (d.severity, d.message, d.code)) =
    [(.information, "x", "shellcheck:SC2086"), (.hint, "1:2: x ", "glob")] := by decide

end WorkflowLint

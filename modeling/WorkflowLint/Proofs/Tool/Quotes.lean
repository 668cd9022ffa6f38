import WorkflowLint.Coordinator.Handler
import WorkflowLint.Proofs.Text.Excerpts
import WorkflowLint.Proofs.Tool.Answers
/-!
# How much of the output is quoted

Whatever the tool writes, the notice of it is not much longer than what a message may quote, but for
one: a text where a number should be is quoted whole, however long it is
(`Outcome.length_notice_le_iff`). The sizes, places and exit codes that are printed are those a
machine can have: 63 bits for the texts, and 32 with a sign for the exit code.
-/

namespace WorkflowLint

/-! ## Messages -/

theorem RunFailure.length_text_exitCode (code : Int) (output : String) :
    (exitCode code output).text.length = 30 + (toString code).length + output.length := by
  change (s!"actionlint exited with code {code}: {output}").length = _
  simp only [String.length_append]
  change 28 + (toString code).length + 2 + output.length = _
  omega

theorem RunFailure.length_text_unexpectedFormat (detail : String) :
    (unexpectedFormat detail).text.length = 49 + detail.length := by
  change (s!"actionlint produced an unexpected output format: {detail}").length = _
  rw [String.length_append]
  rfl

theorem RunFailure.length_text_unreadable (cause raw : String) :
    (unreadable cause raw).text.length = 38 + cause.length + raw.length := by
  change (s!"failed to parse actionlint output ({cause}): {raw}").length = _
  simp only [String.length_append]
  change 35 + cause.length + 3 + raw.length = _
  omega

namespace Json

theorem SyntaxCause.length_text_le (c : SyntaxCause) : c.text.length ≤ 62 := by
  cases c <;> decide

theorem SyntaxError.length_text_le {e : SyntaxError} (hline : e.line < 10 ^ 20)
    (hcolumn : e.column < 10 ^ 20) : e.text.length ≤ 119 := by
  have hcause := e.cause.length_text_le
  have hline := length_repr_le (by decide) hline
  have hcolumn := length_repr_le (by decide) hcolumn
  change (s!"{e.cause.text} at line {e.line} column {e.column}").length ≤ _
  simp only [String.length_append]
  change e.cause.text.length + 9 + e.line.repr.length + 8 + e.column.repr.length ≤ 119
  omega

theorem Mismatch.length_text_kind (found expected : String) :
    (kind found expected).text.length = 25 + found.length + expected.length := by
  change (s!"invalid type: {found}, expected {expected}").length = _
  simp only [String.length_append]
  change 14 + found.length + 11 + expected.length = _
  omega

theorem Mismatch.length_text_range (found expected : String) :
    (range found expected).text.length = 26 + found.length + expected.length := by
  change (s!"invalid value: {found}, expected {expected}").length = _
  simp only [String.length_append]
  change 15 + found.length + 11 + expected.length = _
  omega

theorem length_integer_le {n : Int} (hlow : -0x8000000000000000 ≤ n) (hhigh : n ≤ maxDigits) :
    (s!"integer `{n}`").length ≤ 31 := by
  have hlength := length_toString_int_le (n := n) (k := 20) (by decide)
    (by rw [maxDigits] at hhigh; omega)
  simp only [String.length_append]
  change 9 + (toString n).length + 1 ≤ 31
  omega

theorem Sound.length_describe_le {v : Json} (hv : v.Sound) (htext : ∀ s, v ≠ .string s) :
    (describe v).length ≤ 42 := by
  cases hv with
  | null => decide
  | bool b => cases b <;> decide
  | number hn =>
    cases hn with
    | int hlow hhigh => exact Nat.le_trans (length_integer_le hlow hhigh) (by decide)
    | @float x hx =>
      have hlength := length_floatText_le hx
      change (s!"floating point `{floatText x}`").length ≤ 42
      simp only [String.length_append]
      change 16 + (floatText x).length + 1 ≤ 42
      omega
  | string s => exact absurd rfl (htext s)
  | array _ => exact (by decide : "sequence".length ≤ 42)
  | fields _ _ => exact (by decide : "map".length ≤ 42)

end Json

/-! ## Fields that do not fit -/

namespace Finding

variable {key : String} {v : Json} {m : Json.Mismatch}

theorem textMisfit?_eq_some (h : textMisfit? v = some m) :
    (∀ s, v ≠ .string s) ∧ m = .kind (Json.describe v) "a string" := by
  cases v with
  | string s => cases h
  | _ => exact ⟨nofun, (Option.some.inj h).symm⟩

theorem numberMisfit?_eq_some (h : numberMisfit? v = some m) :
    (∃ n, v = .number (.int n) ∧ m = .range s!"integer `{n}`" "i64") ∨
      m = .kind (Json.describe v) "i64" := by
  rw [numberMisfit?.eq_def] at h
  split at h
  · split at h
    · cases h
    · exact .inl ⟨_, rfl, (Option.some.inj h).symm⟩
  · exact .inr (Option.some.inj h).symm

theorem length_misfit_le (hv : v.Sound) (htext : key ∈ numberKeys → ∀ s, v ≠ .string s)
    (h : misfit? (key, v) = some m) : m.text.length ≤ 75 := by
  rw [misfit?] at h
  dsimp only at h
  split at h
  · obtain ⟨hne, rfl⟩ := textMisfit?_eq_some h
    have hlength := hv.length_describe_le hne
    rw [Json.Mismatch.length_text_kind]
    change _ + 8 ≤ 75
    omega
  · split at h
    · next hkey =>
      rcases numberMisfit?_eq_some h with ⟨n, rfl, rfl⟩ | rfl
      · cases hv with
        | number hn =>
          cases hn with
          | int hlow hhigh =>
            have hlength := Json.length_integer_le hlow hhigh
            rw [Json.Mismatch.length_text_range]
            change _ + 3 ≤ 75
            omega
      · have hlength := hv.length_describe_le (htext hkey)
        rw [Json.Mismatch.length_text_kind]
        change _ + 3 ≤ 75
        omega
    · cases h

end Finding

namespace Report

open Finding (misfit? numberKeys)

variable {code : Int} {stdout stderr : String} {index : Nat} {v : Json} {vs : List Json}
  {detail s : String} {n : Notice}

/-! ## Messages about the output -/

theorem length_quote_le (h : s.length < 2 ^ 63) : (quote s).length ≤ quotedLimit + 38 :=
  Text.length_excerpt_le h

theorem length_trimmed_lt (h : s.length < 2 ^ 63) : (Text.trimmed s).length < 2 ^ 63 :=
  Nat.lt_of_le_of_lt (Text.length_trimmed_le s) h

theorem length_complaint_le (hout : stdout.length < 2 ^ 63) (herr : stderr.length < 2 ^ 63) :
    (complaint stdout stderr).length ≤ quotedLimit + 38 := by
  refine length_quote_le ?_
  split_ifs
  · exact length_trimmed_lt herr
  · exact length_trimmed_lt hout
  · decide

theorem length_noFindings_le (herr : stderr.length < 2 ^ 63) :
    (noFindings stderr).length ≤ quotedLimit + 150 := by
  have hquote := length_quote_le (length_trimmed_lt herr)
  unfold noFindings
  split
  · decide
  · simp only [String.length_append]
    change 80 + 22 + (2 + (quote (Text.trimmed stderr)).length) ≤ quotedLimit + 150
    omega

theorem length_kindOf_le (v : Json) : (kindOf v).length ≤ 9 := by
  cases v with
  | null => decide
  | bool _ => exact (by decide : "a boolean".length ≤ 9)
  | number _ => exact (by decide : "a number".length ≤ 9)
  | string _ => exact (by decide : "a string".length ≤ 9)
  | array _ => exact (by decide : "an array".length ≤ 9)
  | fields _ => exact (by decide : "an object".length ≤ 9)

theorem length_element_le (hindex : index < 10 ^ 20) (detail : String) :
    (s!"element {index}: {detail}").length ≤ 30 + detail.length := by
  have hlength := length_repr_le (by decide) hindex
  simp only [String.length_append]
  change 8 + index.repr.length + 2 + detail.length ≤ _
  omega

/-- Of an element that is no finding not much is said, unless a text is where a number should be. -/
theorem Spoils.length_le (hv : v.Sound) (hindex : index < 10 ^ 20) (h : Spoils index v detail)
    (hplaced : ∀ before key s after, v = .fields (before ++ (key, .string s) :: after) →
      (∀ g ∈ before, misfit? g = none) → key ∉ numberKeys) : detail.length ≤ 105 := by
  cases h with
  | @field before after g m hm hbefore =>
    obtain ⟨key, w⟩ := g
    cases hv with
    | fields _ hfields =>
      have hw : w.Sound := hfields (key, w) (List.mem_append_right _ List.mem_cons_self)
      have htext : key ∈ numberKeys → ∀ s, w ≠ .string s := by
        rintro hkey s rfl
        exact hplaced before key s after rfl hbefore hkey
      have hlength := Finding.length_misfit_le hw htext hm
      exact Nat.le_trans (length_element_le hindex m.text) (by omega)
  | kind _ =>
    have hlength := length_repr_le (by decide) hindex
    have hkind := length_kindOf_le v
    simp only [String.length_append]
    change 8 + index.repr.length + 4 + (kindOf v).length + 15 ≤ 105
    omega

theorem length_bytes_lt (hout : stdout.length < 2 ^ 63) :
    (Text.Utf8.ofString (Text.trimmed stdout)).length < 2 ^ 65 := by
  have htrimmed := length_trimmed_lt hout
  have hbytes := Text.length_encode_le (Text.trimmed stdout).toList
  rw [String.length_toList] at hbytes
  rw [Text.Utf8.ofString]
  omega

/-! ## Texts in place of numbers -/

/-- The first thing in the output that does not fit is a text `s` where a number should be, in the
element of the given index. -/
inductive Misplaces (stdout : String) : Nat → String → Prop
  | mk {before after : List Json} {fbefore fafter : List (String × Json)} {key s : String}
      (h : Shows stdout (.array (before ++ .fields (fbefore ++ (key, .string s) :: fafter) :: after)))
      (hbefore : ∀ w ∈ before, ∃ f, IsFinding w f) (hfields : ∀ g ∈ fbefore, misfit? g = none)
      (hkey : key ∈ numberKeys) : Misplaces stdout before.length s

/-- What is said of it. -/
def misplaced (index : Nat) (s : String) : String :=
  s!"element {index}: invalid type: string {Text.quoted s}, expected i64"

theorem misplaced_eq {m : Json.Mismatch} (hm : m = .kind (Json.describe (.string s)) "i64") :
    s!"element {index}: {m.text}" = misplaced index s := by
  subst hm
  change "element " ++ toString index ++ ": " ++
      ("invalid type: " ++ ("string " ++ Text.quoted s) ++ ", expected " ++ "i64") =
    "element " ++ toString index ++ ": invalid type: string " ++ Text.quoted s ++ ", expected i64"
  rw [← String.toList_inj]
  simp only [String.toList_append, List.append_assoc]
  rfl

theorem Misplaces.comes (hcode : code = 0 ∨ code = 1) (h : Misplaces stdout index s) :
    Comes code stdout stderr (.failure (.unexpectedFormat (misplaced index s))) := by
  cases h with
  | @mk before after fbefore fafter key _ h hbefore hfields hkey =>
    have htext : key ∉ Finding.textKeys := by
      have hdisjoint : ∀ key ∈ numberKeys, key ∉ Finding.textKeys := by decide
      exact hdisjoint key hkey
    have hmisfit : misfit? (key, .string s) =
        some (.kind (Json.describe (.string s)) "i64") := by
      rw [misfit?, if_neg htext, if_pos hkey]
      rfl
    rw [← misplaced_eq rfl]
    exact .spoiled hcode h hbefore (.field hmisfit hfields)

theorem Misplaces.noticeOf? (hcode : code = 0 ∨ code = 1) (h : Misplaces stdout index s) :
    Coordinator.noticeOf? (.ofExit code stdout stderr) = some
      { urgency := .error, message := (RunFailure.unexpectedFormat (misplaced index s)).text } := by
  rw [(h.comes hcode).eq]
  rfl

theorem lt_length_misplaced (index : Nat) (s : String) :
    s.length < (RunFailure.unexpectedFormat (misplaced index s)).text.length := by
  have hquoted := Text.length_lt_quoted s
  have hlength : (misplaced index s).length =
      8 + index.repr.length + 23 + (Text.quoted s).length + 14 := by
    unfold misplaced
    simp only [String.length_append]
    rfl
  rw [RunFailure.length_text_unexpectedFormat]
  omega

/-- Output in which a text stands where the line should be. -/
def misplacing (s : String) : String := Json.render (.array [.fields [("line", .string s)]])

theorem misplaces_misplacing (s : String) : Misplaces (misplacing s) 0 s := by
  have hplain : Json.Plain Json.maxDepth (.array [.fields [("line", .string s)]]) := by
    refine .array fun v hv => ?_
    obtain rfl := List.mem_singleton.mp hv
    refine .fields fun f hf => ?_
    obtain rfl := List.mem_singleton.mp hf
    exact .string s
  have hshows : Shows (misplacing s) (.array [.fields [("line", .string s)]]) := by
    rw [Shows, misplacing, trimmed_render_array]
    exact Json.parse_toBytes hplain
  exact @Misplaces.mk (misplacing s) [] [] [] [] "line" s hshows (List.forall_mem_nil _)
    (List.forall_mem_nil _) (by decide)

theorem length_quote_replicate (k : Nat) :
    (Json.quote (String.ofList (List.replicate k 'x'))).length = k + 2 := by
  have hflat : (List.replicate k 'x').flatMap Json.escapeChar = List.replicate k 'x' := by
    induction k with
    | zero => rfl
    | succ k ih =>
      rw [List.replicate_succ, List.flatMap_cons, ih]
      rfl
  unfold Json.quote
  rw [String.toList_ofList, hflat]
  simp only [String.length_append, String.length_ofList, List.length_replicate]
  change 1 + k + 1 = k + 2
  omega

theorem length_misplacing (k : Nat) :
    (misplacing (String.ofList (List.replicate k 'x'))).length = k + 13 := by
  have hquote := length_quote_replicate k
  change ("[" ++ ("\x7b" ++ (Json.quote "line" ++ ":" ++ Json.quote _) ++ "\x7d") ++ "]").length = _
  simp only [String.length_append, hquote]
  change 1 + (1 + (6 + 1 + (k + 2)) + 1) + 1 = k + 13
  omega

/-! ## Notices -/

/-- Apart from texts in place of numbers, no notice is much longer than what it may quote. -/
theorem length_notice_le (hcode : -2 ^ 31 ≤ code ∧ code < 2 ^ 31) (hout : stdout.length < 2 ^ 63)
    (herr : stderr.length < 2 ^ 63)
    (hplaced : code = 0 ∨ code = 1 → ∀ index s, ¬ Misplaces stdout index s)
    (hn : Coordinator.noticeOf? (.ofExit code stdout stderr) = some n) :
    n.message.length ≤ quotedLimit + 200 := by
  have hbytes := length_bytes_lt hout
  have hcomes := comes_ofExit code stdout stderr
  generalize Outcome.ofExit code stdout stderr = o at hcomes hn
  cases hcomes with
  | exitCode _ =>
    obtain rfl := Option.some.inj hn
    have hdigits := length_toString_int_le (n := code) (k := 10) (by decide) (by omega)
    have hcomplaint := length_complaint_le hout herr
    rw [RunFailure.length_text_exitCode]
    omega
  | clean _ _ => cases hn
  | warned _ _ =>
    obtain rfl := Option.some.inj hn
    exact Nat.le_trans (length_noFindings_le herr) (Nat.add_le_add_left (by decide) _)
  | found _ _ _ _ => cases hn
  | @spoiled before after v detail hcode h hbefore hspoils =>
    obtain rfl := Option.some.inj hn
    -- the array has no more elements than the output has bytes, so the index has 20 digits at most
    have hindex : before.length < 10 ^ 20 := by
      have hlength := Json.length_le_of_parse h
      rw [List.length_append] at hlength
      omega
    have hv : v.Sound := by
      cases Json.parse_sound h with
      | array hvs => exact hvs v (List.mem_append_right _ List.mem_cons_self)
    have hdetail := hspoils.length_le hv hindex (by
      rintro fbefore key s fafter rfl hfields hkey
      exact hplaced hcode _ s (.mk h hbefore hfields hkey))
    rw [RunFailure.length_text_unexpectedFormat]
    omega
  | @shape v _ _ _ _ =>
    obtain rfl := Option.some.inj hn
    have hkind := length_kindOf_le v
    rw [RunFailure.length_text_unexpectedFormat, String.length_append]
    change 49 + (27 + (kindOf v).length) ≤ quotedLimit + 200
    omega
  | @unreadable e _ _ h =>
    obtain rfl := Option.some.inj hn
    obtain ⟨hline, hcolumn⟩ := Json.SyntaxError.le_of_parse h
    have hcause := Json.SyntaxError.length_text_le (e := e) (by omega) (by omega)
    have hquote := length_quote_le (length_trimmed_lt hout)
    rw [RunFailure.length_text_unreadable]
    omega

end Report

namespace Outcome

open Report (Misplaces misplaced quotedLimit)

/-- **How much is said of the output.** Whatever the tool leaves, and whichever bound is put on the
notice of it that has room for what a message may quote, the notice keeps to the bound unless the
first thing in an array that does not fit is a text where a number should be, and the message with
that text does not. -/
theorem length_notice_le_iff {code : Int} {stdout stderr : String} {bound : Nat}
    (hcode : -2 ^ 31 ≤ code ∧ code < 2 ^ 31) (hout : stdout.length < 2 ^ 63)
    (herr : stderr.length < 2 ^ 63) (hbound : quotedLimit + 200 ≤ bound) :
    (∀ n, Coordinator.noticeOf? (ofExit code stdout stderr) = some n → n.message.length ≤ bound) ↔
      (code = 0 ∨ code = 1 → ∀ index s, Misplaces stdout index s →
        (RunFailure.unexpectedFormat (misplaced index s)).text.length ≤ bound) := by
  constructor
  · intro h hexit index s hplaced
    have hle := h _ (hplaced.noticeOf? hexit)
    exact hle
  · intro h n hn
    by_cases hplaced : (code = 0 ∨ code = 1) ∧ ∃ index s, Misplaces stdout index s
    · obtain ⟨hexit, index, s, hplaced⟩ := hplaced
      obtain rfl := Option.some.inj ((hplaced.noticeOf? hexit).symm.trans hn)
      exact h hexit index s hplaced
    · refine Nat.le_trans (Report.length_notice_le hcode hout herr ?_ hn) hbound
      intro hexit index s hmis
      exact hplaced ⟨hexit, index, s, hmis⟩

/-- Of a crash no more is said than that, however much the tool complains. -/
theorem length_notice_le_of_crash :
    let errors := String.ofList (List.replicate 100000 'x')
    let text := (RunFailure.exitCode 2 (Report.complaint "" errors)).text
    errors.length < 2 ^ 63 ∧
      Coordinator.noticeOf? (ofExit 2 "" errors) = some { urgency := .error, message := text } ∧
      text.length ≤ quotedLimit + 200 := by
  intro errors text
  have herrors : errors.length < 2 ^ 63 := by
    rw [String.length_ofList, List.length_replicate]
    decide
  have hnotice : Coordinator.noticeOf? (ofExit 2 "" errors) =
      some { urgency := .error, message := text } := by
    rw [(Report.Comes.exitCode (by decide)).eq]
    rfl
  have hbound := (@length_notice_le_iff 2 "" errors _ (by decide) (by decide) herrors
    (Nat.le_refl _)).mpr (fun hexit => absurd hexit (by decide)) _ hnotice
  exact ⟨herrors, hnotice, hbound⟩

/-- No bound is kept to, even when the output is hardly longer than the bound. -/
theorem exists_longer_notice : ¬ ∃ bound : Nat, ∀ stdout : String, stdout.length ≤ bound + 13 →
    ∀ n, Coordinator.noticeOf? (ofExit 1 stdout "") = some n → n.message.length ≤ bound := by
  rintro ⟨bound, h⟩
  have hplaced := Report.misplaces_misplacing (String.ofList (List.replicate bound 'x'))
  have hle := h _ (Report.length_misplacing bound).le _ (hplaced.noticeOf? (.inr rfl))
  have hlt := Report.lt_length_misplaced 0 (String.ofList (List.replicate bound 'x'))
  rw [String.length_ofList, List.length_replicate] at hlt
  exact Nat.not_le_of_lt hlt hle

end Outcome

end WorkflowLint

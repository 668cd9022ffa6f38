import WorkflowLint.Proofs.Json.RoundTrip
import WorkflowLint.Proofs.Json.Values
import WorkflowLint.Proofs.Lint.Reading
import WorkflowLint.Tool.Report
import Mathlib.Data.List.Forall2
/-!
# What the answer of the tool comes to

`Report.Comes` says without the reader which outcome an exit code and the texts that the tool leaves
come to, and each pair of them comes to exactly one (`ofExit_eq_iff`). So findings are neither lost
nor made up: those of the outcome are the elements of the array, one by one and in order, and one
element that is no finding spoils all (`Outcome.classified`). What is written as findings is read as
them.
-/

namespace WorkflowLint

namespace Report

open Finding (misfit? ofFields)

variable {v w : Json} {vs : List Json} {f : Finding} {fs : List Finding} {index : Nat}
  {code : Int} {stdout stderr : String} {e : RunFailure} {detail : String}

/-! ## Elements -/

/-- An element that is a finding: an object all of whose fields fit. -/
inductive IsFinding : Json → Finding → Prop
  | fields {fields : List (String × Json)} (h : ∀ g ∈ fields, misfit? g = none) :
      IsFinding (.fields fields) (ofFields fields)

/-- An element that is none, and what is said of it: it has a field that does not fit, of which the
first is named, or it is no object. -/
inductive Spoils (index : Nat) : Json → String → Prop
  | field {before after : List (String × Json)} {g : String × Json} {m : Json.Mismatch}
      (h : misfit? g = some m) (hbefore : ∀ g ∈ before, misfit? g = none) :
      Spoils index (.fields (before ++ g :: after)) s!"element {index}: {m.text}"
  | kind {v : Json} (h : ∀ fields, v ≠ .fields fields) :
      Spoils index v s!"element {index} is {kindOf v}, not an object"

theorem mapError_eq_ok_iff {α ε ε' : Type} {x : Except ε α} {g : ε → ε'} {a : α} :
    x.mapError g = .ok a ↔ x = .ok a := by
  cases x <;> simp [Except.mapError]

theorem mapError_eq_error_iff {α ε ε' : Type} {x : Except ε α} {g : ε → ε'} {e : ε'} :
    x.mapError g = .error e ↔ ∃ e', x = .error e' ∧ g e' = e := by
  cases x <;> simp [Except.mapError]

theorem finding_of_ne (h : ∀ fields, v ≠ .fields fields) : finding index v =
    .error (.unexpectedFormat s!"element {index} is {kindOf v}, not an object") := by
  cases v with
  | fields fields => exact absurd rfl (h fields)
  | _ => rfl

theorem finding_eq_ok_iff (hv : v.Sound) : finding index v = .ok f ↔ IsFinding v f := by
  cases hv with
  | @fields fields hkeys _ =>
    rw [finding, mapError_eq_ok_iff, Finding.read_eq_ok_iff hkeys]
    constructor
    · rintro ⟨h, rfl⟩
      exact .fields h
    · rintro ⟨h⟩
      exact ⟨h, rfl⟩
  | _ => exact iff_of_false nofun nofun

theorem finding_eq_error_iff (hv : v.Sound) :
    finding index v = .error e ↔ ∃ detail, e = .unexpectedFormat detail ∧ Spoils index v detail := by
  by_cases hobject : ∃ fields, v = .fields fields
  · obtain ⟨fields, rfl⟩ := hobject
    cases hv with
    | fields hkeys _ =>
      rw [finding, mapError_eq_error_iff]
      simp only [Finding.read_eq_error_iff hkeys]
      constructor
      · rintro ⟨m, ⟨before, g, after, rfl, hm, hbefore⟩, rfl⟩
        exact ⟨_, rfl, .field hm hbefore⟩
      · rintro ⟨detail, rfl, hspoils⟩
        cases hspoils with
        | field hm hbefore => exact ⟨_, ⟨_, _, _, rfl, hm, hbefore⟩, rfl⟩
        | kind h => exact absurd rfl (h fields)
  · have hne : ∀ fields, v ≠ .fields fields := fun fields h => hobject ⟨fields, h⟩
    rw [finding_of_ne hne]
    constructor
    · rintro ⟨⟩
      exact ⟨_, rfl, .kind hne⟩
    · rintro ⟨detail, rfl, hspoils⟩
      cases hspoils with
      | field _ _ => exact absurd rfl (hne _)
      | kind _ => rfl

theorem exists_spoils_iff (hv : v.Sound) :
    (∃ detail, Spoils index v detail) ↔ ∀ f, ¬ IsFinding v f := by
  have hok := fun f => @finding_eq_ok_iff v f index hv
  have herror := fun e => @finding_eq_error_iff v index e hv
  cases h : finding index v with
  | ok f =>
    rw [h] at hok herror
    refine iff_of_false ?_ fun hnone => hnone f ((hok f).mp rfl)
    rintro ⟨detail, hspoils⟩
    cases (herror _).mpr ⟨detail, rfl, hspoils⟩
  | error e =>
    rw [h] at hok herror
    obtain ⟨detail, -, hspoils⟩ := (herror e).mp rfl
    exact iff_of_true ⟨detail, hspoils⟩ fun f hf => nomatch (hok f).mpr hf

/-! ## Arrays -/

theorem findings_cons : findings index (v :: vs) =
    (finding index v).bind fun f => (findings (index + 1) vs).map (f :: ·) := by
  rw [findings]
  cases finding index v with
  | error e => rfl
  | ok f => cases findings (index + 1) vs <;> rfl

theorem findings_eq_ok_iff (hvs : ∀ v ∈ vs, v.Sound) :
    findings index vs = .ok fs ↔ List.Forall₂ IsFinding vs fs := by
  induction vs generalizing index fs with
  | nil =>
    rw [findings, List.forall₂_nil_left_iff]
    exact ⟨fun h => (Except.ok.inj h).symm, fun h => congrArg Except.ok h.symm⟩
  | cons v vs ih =>
    obtain ⟨hv, hvs⟩ := List.forall_mem_cons.mp hvs
    rw [findings_cons, List.forall₂_cons_left_iff]
    have hok := fun f => @finding_eq_ok_iff v f index hv
    have hrest := fun fs => @ih fs (index + 1) hvs
    simp only [← hok, ← hrest]
    cases finding index v with
    | error e => simp [Except.bind]
    | ok f =>
      cases findings (index + 1) vs with
      | error e => simp [Except.bind, Except.map]
      | ok gs => simp [Except.bind, Except.map, eq_comm]

theorem findings_eq_error_iff (hvs : ∀ v ∈ vs, v.Sound) :
    findings index vs = .error e ↔ ∃ before v after detail, vs = before ++ v :: after ∧
      (∀ w ∈ before, ∃ f, IsFinding w f) ∧ Spoils (index + before.length) v detail ∧
        e = .unexpectedFormat detail := by
  induction vs generalizing index with
  | nil =>
    refine iff_of_false nofun ?_
    rintro ⟨before, v, after, -, hnil, -⟩
    cases before <;> cases hnil
  | cons v vs ih =>
    obtain ⟨hv, hvs⟩ := List.forall_mem_cons.mp hvs
    rw [findings_cons]
    cases hfinding : finding index v with
    | error e' =>
      constructor
      · rintro ⟨⟩
        obtain ⟨detail, rfl, hspoils⟩ := (finding_eq_error_iff hv).mp hfinding
        exact ⟨[], v, vs, detail, rfl, List.forall_mem_nil _, hspoils, rfl⟩
      · rintro ⟨before, w, after, detail, hsplit, hbefore, hspoils, rfl⟩
        cases before with
        | nil =>
          obtain ⟨rfl, -⟩ := List.cons.inj hsplit
          have heq := hfinding.symm.trans ((finding_eq_error_iff hv).mpr ⟨detail, rfl, hspoils⟩)
          rw [Except.error.inj heq]
          rfl
        | cons u before =>
          obtain ⟨rfl, -⟩ := List.cons.inj hsplit
          obtain ⟨f, hf⟩ := hbefore v List.mem_cons_self
          exact nomatch hfinding.symm.trans ((finding_eq_ok_iff hv).mpr hf)
    | ok f =>
      have hf := (finding_eq_ok_iff hv).mp hfinding
      have hrest : (findings (index + 1) vs).map (f :: ·) = .error e ↔
          findings (index + 1) vs = .error e := by
        cases findings (index + 1) vs <;> simp [Except.map]
      refine hrest.trans ((ih hvs).trans ⟨?_, ?_⟩)
      · rintro ⟨before, w, after, detail, rfl, hbefore, hspoils, rfl⟩
        rw [Nat.add_right_comm] at hspoils
        exact ⟨v :: before, w, after, detail, rfl, List.forall_mem_cons.mpr ⟨⟨f, hf⟩, hbefore⟩,
          hspoils, rfl⟩
      · rintro ⟨before, w, after, detail, hsplit, hbefore, hspoils, rfl⟩
        cases before with
        | nil =>
          obtain ⟨rfl, -⟩ := List.cons.inj hsplit
          exact absurd hf ((exists_spoils_iff hv).mp ⟨detail, hspoils⟩ f)
        | cons u before =>
          obtain ⟨-, rfl⟩ := List.cons.inj hsplit
          rw [List.length_cons, ← Nat.add_assoc, Nat.add_right_comm] at hspoils
          exact ⟨before, w, after, detail, rfl, (List.forall_mem_cons.mp hbefore).2, hspoils, rfl⟩

/-! ## Outcomes -/

/-- The output holds a JSON value, among blanks. -/
def Shows (stdout : String) (v : Json) : Prop :=
  Json.parse (Text.Utf8.ofString (Text.trimmed stdout)) = .ok v

/-- The output shows no findings: it is blank, null or an empty array. -/
def ShowsNothing (stdout : String) : Prop :=
  Text.trimmed stdout = "" ∨ Shows stdout .null ∨ Shows stdout (.array [])

/-- What is said when there should be findings and there are none. -/
def noFindings (stderr : String) : String :=
  "actionlint exited with code 1 but reported no findings; the executable may be a " ++
    "broken shim or wrapper" ++
      if Text.trimmed stderr = "" then "" else ": " ++ quote (Text.trimmed stderr)

/-- What an exit code and the texts left by the tool come to. -/
inductive Comes (code : Int) (stdout stderr : String) : Outcome → Prop
  /-- Any exit code but the two is a failure. -/
  | exitCode (hcode : code ≠ 0 ∧ code ≠ 1) :
      Comes code stdout stderr (.failure (.exitCode code (complaint stdout stderr)))
  /-- There is nothing to find. -/
  | clean (hcode : code = 0) (h : ShowsNothing stdout) : Comes code stdout stderr (.findings [])
  /-- There should be findings and there are none. -/
  | warned (hcode : code = 1) (h : ShowsNothing stdout) :
      Comes code stdout stderr (.warning (noFindings stderr))
  /-- Every element is a finding. -/
  | found {vs : List Json} {fs : List Finding} (hcode : code = 0 ∨ code = 1)
      (h : Shows stdout (.array vs)) (hne : vs ≠ []) (hfound : List.Forall₂ IsFinding vs fs) :
      Comes code stdout stderr (.findings fs)
  /-- The first element that is no finding is named. -/
  | spoiled {before after : List Json} {v : Json} {detail : String} (hcode : code = 0 ∨ code = 1)
      (h : Shows stdout (.array (before ++ v :: after)))
      (hbefore : ∀ w ∈ before, ∃ f, IsFinding w f) (hspoils : Spoils before.length v detail) :
      Comes code stdout stderr (.failure (.unexpectedFormat detail))
  /-- The value is neither null nor an array. -/
  | shape {v : Json} (hcode : code = 0 ∨ code = 1) (h : Shows stdout v) (hnull : v ≠ .null)
      (harray : ∀ vs, v ≠ .array vs) :
      Comes code stdout stderr (.failure (.unexpectedFormat s!"expected a JSON array, got {kindOf v}"))
  /-- The output is no JSON value. -/
  | unreadable {e : Json.SyntaxError} (hcode : code = 0 ∨ code = 1)
      (hne : Text.trimmed stdout ≠ "")
      (h : Json.parse (Text.Utf8.ofString (Text.trimmed stdout)) = .error e) :
      Comes code stdout stderr (.failure (.unreadable e.text (quote (Text.trimmed stdout))))

theorem comes_nothing (hcode : code = 0 ∨ code = 1) (h : ShowsNothing stdout) :
    Comes code stdout stderr (nothing code stderr) := by
  rcases hcode with rfl | rfl
  · exact .clean rfl h
  · exact .warned rfl h

theorem exists_finding_of_mem (h : List.Forall₂ IsFinding vs fs) (hv : v ∈ vs) :
    ∃ f, IsFinding v f := by
  induction h with
  | nil => cases hv
  | cons hf _ ih =>
    rcases List.mem_cons.mp hv with rfl | hv
    · exact ⟨_, hf⟩
    · exact ih hv

theorem exists_first_spoiled (hvs : ∀ v ∈ vs, v.Sound) (h : ∃ v ∈ vs, ∀ f, ¬ IsFinding v f) :
    ∃ before v after detail, vs = before ++ v :: after ∧ (∀ w ∈ before, ∃ f, IsFinding w f) ∧
      Spoils before.length v detail := by
  obtain ⟨v, hv, hnone⟩ := h
  cases hread : findings 0 vs with
  | ok fs =>
    obtain ⟨f, hf⟩ := exists_finding_of_mem ((findings_eq_ok_iff hvs).mp hread) hv
    exact absurd hf (hnone f)
  | error e =>
    obtain ⟨before, w, after, detail, hsplit, hbefore, hspoils, -⟩ :=
      (findings_eq_error_iff hvs).mp hread
    exact ⟨before, w, after, detail, hsplit, hbefore, (Nat.zero_add before.length) ▸ hspoils⟩

theorem comes_ofValue (hcode : code = 0 ∨ code = 1) (h : Shows stdout v) :
    Comes code stdout stderr (ofValue code stderr v) := by
  cases v with
  | null => exact comes_nothing hcode (.inr (.inl h))
  | array vs =>
    cases vs with
    | nil => exact comes_nothing hcode (.inr (.inr h))
    | cons v vs =>
      cases Json.parse_sound h with
      | array hvs =>
        rw [ofValue]
        · split
          · next hok => exact .found hcode h (List.cons_ne_nil v vs) ((findings_eq_ok_iff hvs).mp hok)
          · next herror =>
            obtain ⟨before, w, after, detail, hsplit, hbefore, hspoils, rfl⟩ :=
              (findings_eq_error_iff hvs).mp herror
            rw [Nat.zero_add] at hspoils
            exact .spoiled hcode (hsplit ▸ h) hbefore hspoils
        · nofun
  | _ => exact .shape hcode h nofun nofun

/-- Every exit code and output comes to the outcome it is given. -/
theorem comes_ofExit (code : Int) (stdout stderr : String) :
    Comes code stdout stderr (.ofExit code stdout stderr) := by
  rw [Outcome.ofExit]
  split
  · next hcode => exact .exitCode hcode
  · next hcode =>
    have hcode : code = 0 ∨ code = 1 := by omega
    dsimp only
    split
    · next hblank => exact comes_nothing hcode (.inl hblank)
    · next hne =>
      split
      · next h => exact comes_ofValue hcode h
      · next h => exact .unreadable hcode hne h

theorem Shows.ne_empty (h : Shows stdout v) : Text.trimmed stdout ≠ "" := by
  intro hempty
  rw [Shows, hempty] at h
  cases h

theorem ofExit_of_shows (hcode : code = 0 ∨ code = 1) (h : Shows stdout v) :
    Outcome.ofExit code stdout stderr = ofValue code stderr v := by
  rw [Outcome.ofExit, if_neg (by omega)]
  dsimp only
  rw [if_neg h.ne_empty, h]

theorem ofExit_of_showsNothing (hcode : code = 0 ∨ code = 1) (h : ShowsNothing stdout) :
    Outcome.ofExit code stdout stderr = nothing code stderr := by
  rcases h with hblank | h | h
  · rw [Outcome.ofExit, if_neg (by omega)]
    exact if_pos hblank
  · exact ofExit_of_shows hcode h
  · exact ofExit_of_shows hcode h

theorem Comes.eq {o : Outcome} (h : Comes code stdout stderr o) :
    Outcome.ofExit code stdout stderr = o := by
  cases h with
  | exitCode hcode => exact if_pos hcode
  | clean hcode h =>
    subst hcode
    exact ofExit_of_showsNothing (.inl rfl) h
  | warned hcode h =>
    subst hcode
    exact ofExit_of_showsNothing (.inr rfl) h
  | @found vs fs hcode h hne hfound =>
    cases Json.parse_sound h with
    | array hvs =>
      rw [ofExit_of_shows hcode h, ofValue, (findings_eq_ok_iff hvs).mpr hfound]
      exact hne
  | @spoiled before after v detail hcode h hbefore hspoils =>
    cases Json.parse_sound h with
    | array hvs =>
      rw [ofExit_of_shows hcode h, ofValue, (findings_eq_error_iff hvs).mpr
        ⟨before, v, after, detail, rfl, hbefore, (Nat.zero_add _).symm ▸ hspoils, rfl⟩]
      exact List.append_ne_nil_of_right_ne_nil _ (List.cons_ne_nil v after)
  | @shape v hcode h hnull harray =>
    rw [ofExit_of_shows hcode h]
    cases v with
    | null => exact absurd rfl hnull
    | array vs => exact absurd rfl (harray vs)
    | _ => rfl
  | unreadable hcode hne h =>
    rw [Outcome.ofExit, if_neg (by omega)]
    dsimp only
    rw [if_neg hne, h]

theorem ofExit_eq_iff {o : Outcome} :
    Outcome.ofExit code stdout stderr = o ↔ Comes code stdout stderr o :=
  ⟨fun h => h ▸ comes_ofExit code stdout stderr, Comes.eq⟩

/-! ## Findings as they are written -/

variable {items : List (List (String × Json))}

theorem plain_of_mem_written (h : f.Holds) {g : String × Json} (hg : g ∈ f.written) {depth : Nat} :
    Json.Plain depth g.2 ∧ g.2.ordered = g.2 := by
  have hint {n : Int} (hn : Finding.IsShort n) : Json.Plain depth (Json.int n) :=
    .int hn.1 (Int.le_trans hn.2 (by decide))
  simp only [Finding.written, List.mem_cons, List.not_mem_nil, or_false] at hg
  rcases hg with rfl | rfl | rfl | rfl | rfl | rfl | rfl
  · exact ⟨.string _, rfl⟩
  · exact ⟨.string _, rfl⟩
  · exact ⟨hint h.line, rfl⟩
  · exact ⟨hint h.column, rfl⟩
  · exact ⟨hint h.endColumn, rfl⟩
  · exact ⟨.string _, rfl⟩
  · exact ⟨.string _, rfl⟩

theorem trimmed_render_array (vs : List Json) :
    Text.trimmed (Json.render (.array vs)) = Json.render (.array vs) := by
  have hlist : (Json.render (.array vs)).toList = '[' :: ((Json.renderItems vs).toList ++ [']']) := by
    rw [Json.render, String.toList_append, String.toList_append]
    rfl
  have htrim := @Text.trim_split [] ((Json.renderItems vs).toList ++ [']']) '[' rfl (by decide)
  rw [List.nil_append, Text.trimEnd_append_cons (by decide), Text.trimEnd_nil] at htrim
  rw [Text.trimmed, hlist, htrim, ← hlist, String.ofList_toList]

theorem isFinding_object (h : f.Holds) {gs : List (String × Json)} (hperm : gs.Perm f.written) :
    IsFinding (Json.object gs) f := by
  obtain ⟨hfits, rfl⟩ :=
    (Finding.read_eq_ok_iff (Json.ascending_sortFields gs)).mp (h.read_object hperm)
  exact .fields hfits

theorem shows_render_written (hfs : ∀ f ∈ fs, f.Holds)
    (hitems : List.Forall₂ (fun f gs => gs.Perm f.written) fs items) :
    Shows (Json.render (.array (items.map .fields))) (.array (items.map Json.object)) := by
  have hwritten : ∀ gs ∈ items, ∀ g ∈ gs, ∀ depth, Json.Plain depth g.2 ∧ g.2.ordered = g.2 := by
    induction hitems with
    | nil => exact List.forall_mem_nil _
    | cons hperm _ ih =>
      obtain ⟨hf, hfs⟩ := List.forall_mem_cons.mp hfs
      exact List.forall_mem_cons.mpr
        ⟨fun g hg depth => plain_of_mem_written hf (hperm.mem_iff.mp hg), ih hfs⟩
  have hplain : Json.Plain Json.maxDepth (.array (items.map .fields)) := by
    refine .array fun v hv => ?_
    obtain ⟨gs, hgs, rfl⟩ := List.mem_map.mp hv
    exact .fields fun g hg => (hwritten gs hgs g hg _).1
  have hordered : (Json.array (items.map .fields)).ordered = .array (items.map Json.object) := by
    rw [Json.ordered, Json.orderedItems_eq_map, List.map_map]
    congr 1
    refine List.map_congr_left fun gs hgs => ?_
    change Json.object (Json.orderedFields gs) = _
    have hsame : gs.map (fun g => (g.1, g.2.ordered)) = gs.map id :=
      List.map_congr_left fun g hg => by rw [(hwritten gs hgs g hg 0).2, id]
    rw [Json.orderedFields_eq_map, hsame, List.map_id]
  rw [Shows, trimmed_render_array, ← hordered]
  exact Json.parse_toBytes hplain

theorem found_of_written (hfs : ∀ f ∈ fs, f.Holds)
    (hitems : List.Forall₂ (fun f gs => gs.Perm f.written) fs items) :
    List.Forall₂ IsFinding (items.map Json.object) fs := by
  induction hitems with
  | nil => exact .nil
  | cons hperm _ ih =>
    obtain ⟨hf, hfs⟩ := List.forall_mem_cons.mp hfs
    exact .cons (isFinding_object hf hperm) (ih hfs)

end Report

/-- **What is found is what was written**, and nothing else. Any exit code but 0 and 1 is a failure.
With those two the outcome is findings if and only if nothing is shown at exit code 0, or every
element of a non-empty array is a finding, one by one and in order; it is a warning if and only if
nothing is shown at exit code 1. The first element that is no finding makes the whole a failure that
names it, and so does any other value, or what is no value. Findings that are written as an array are
read back. -/
theorem Outcome.classified (code : Int) (stdout stderr : String) :
    (code ≠ 0 ∧ code ≠ 1 → ofExit code stdout stderr =
      .failure (.exitCode code (Report.complaint stdout stderr))) ∧
    (code = 0 ∨ code = 1 →
      (∀ fs, ofExit code stdout stderr = .findings fs ↔
        code = 0 ∧ Report.ShowsNothing stdout ∧ fs = [] ∨
          ∃ vs, vs ≠ [] ∧ Report.Shows stdout (.array vs) ∧
            List.Forall₂ Report.IsFinding vs fs) ∧
      ((∃ text, ofExit code stdout stderr = .warning text) ↔
        code = 1 ∧ Report.ShowsNothing stdout) ∧
      (∀ vs, Report.Shows stdout (.array vs) → (∃ v ∈ vs, ∀ f, ¬ Report.IsFinding v f) →
        ∃ before v after detail, vs = before ++ v :: after ∧
          (∀ w ∈ before, ∃ f, Report.IsFinding w f) ∧ Report.Spoils before.length v detail ∧
            ofExit code stdout stderr = .failure (.unexpectedFormat detail)) ∧
      (∀ v, Report.Shows stdout v → v ≠ .null → (∀ vs, v ≠ .array vs) →
        ofExit code stdout stderr = .failure (.unexpectedFormat
          s!"expected a JSON array, got {Report.kindOf v}")) ∧
      (Text.trimmed stdout ≠ "" → ∀ e,
        Json.parse (Text.Utf8.ofString (Text.trimmed stdout)) = .error e →
          ofExit code stdout stderr =
            .failure (.unreadable e.text (Report.quote (Text.trimmed stdout))))) ∧
    (∀ fs items, fs ≠ [] → (∀ f ∈ fs, f.Holds) →
      List.Forall₂ (fun f gs => gs.Perm f.written) fs items →
        ofExit 1 (Json.render (.array (items.map .fields))) stderr = .findings fs) := by
  refine ⟨fun hcode => (Report.Comes.exitCode hcode).eq, fun hcode => ⟨fun fs => ?_, ?_, ?_, ?_, ?_⟩,
    fun fs items hne hfs hitems => ?_⟩
  · rw [Report.ofExit_eq_iff]
    constructor
    · intro h
      cases h with
      | clean hzero h => exact .inl ⟨hzero, h, rfl⟩
      | found _ h hne hfound => exact .inr ⟨_, hne, h, hfound⟩
    · rintro (⟨hzero, h, rfl⟩ | ⟨vs, hne, h, hfound⟩)
      · exact .clean hzero h
      · exact .found hcode h hne hfound
  · simp only [Report.ofExit_eq_iff]
    constructor
    · rintro ⟨text, h⟩
      cases h with
      | warned hone h => exact ⟨hone, h⟩
    · rintro ⟨hone, h⟩
      exact ⟨_, .warned hone h⟩
  · intro vs h hbad
    cases Json.parse_sound h with
    | array hvs =>
      obtain ⟨before, v, after, detail, rfl, hbefore, hspoils⟩ :=
        Report.exists_first_spoiled hvs hbad
      exact ⟨before, v, after, detail, rfl, hbefore, hspoils,
        (Report.Comes.spoiled hcode h hbefore hspoils).eq⟩
  · exact fun v h hnull harray => (Report.Comes.shape hcode h hnull harray).eq
  · exact fun hne e h => (Report.Comes.unreadable hcode hne h).eq
  · refine (Report.Comes.found (.inr rfl) (Report.shows_render_written hfs hitems) ?_
      (Report.found_of_written hfs hitems)).eq
    cases hitems with
    | nil => exact absurd rfl hne
    | cons _ _ => exact List.cons_ne_nil _ _

/-- Two findings are written and read back, the fields of one of them last first. -/
theorem Outcome.classified_of_written :
    let f : Finding := { message := "x", line := 3, kind := "glob" }
    let g : Finding := { message := "say \"no\"\n", column := -1 }
    ofExit 1 (Json.render (.array [.fields f.written, .fields g.written.reverse])) "" =
      .findings [f, g] := by
  intro f g
  have hholds : ∀ h ∈ [f, g], h.Holds := by
    rw [List.forall_mem_cons, List.forall_mem_singleton]
    exact ⟨⟨by decide, by decide, by decide⟩, ⟨by decide, by decide, by decide⟩⟩
  exact (classified 1 "" "").2.2 [f, g] [f.written, g.written.reverse] (List.cons_ne_nil _ _)
    hholds (.cons (.refl _) (.cons (List.reverse_perm _) .nil))

end WorkflowLint

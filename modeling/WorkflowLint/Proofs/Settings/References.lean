import Mathlib.Data.List.Infix
import WorkflowLint.Settings.Reference
/-!
# What a text with references comes to

A text is cut at the first opening and at the first closing brace behind it. `ComesTo` says cut by
cut what a text comes to: what stands before a reference stays, the reference gives way to what it
stands for, and only the text behind it is looked at again. Expansion gives what a text comes to,
and nothing else is (`expanded_in_one_pass`).

Expansion goes character by character and looks for no first opening. Two facts join the two: up to
an opening nothing changes (`expand_append`), and every text is cut in one of three ways, so that
what holds of all texts is shown cut by cut (`cut_induction`). Where the cuts are does not hang on
the environment: a text is in pieces before the first value is known (`exists_pieces`).
-/

namespace WorkflowLint

namespace Reference

/-! ## The rule -/

/-- A text in which no reference opens. -/
def IsPlain (s : String) : Prop := ¬"$\x7b".toList <:+: s.toList

instance : DecidablePred IsPlain := fun s =>
  inferInstanceAs (Decidable (¬"$\x7b".toList <:+: s.toList))

/-- What a reference stands for: what its variable holds, and nothing if the variable is not set or
the reference has no name. -/
inductive StandsFor (env : Environment) : String → String → Prop
  | unnamed : StandsFor env "" ""
  | unset {name : String} (hunset : ∀ value, (name, value) ∉ env) : StandsFor env name ""
  | set {name value : String} (hname : name ≠ "") (hset : env.lookup name = some value) :
      StandsFor env name value

/-- What a text comes to, cut by cut. -/
inductive ComesTo (env : Environment) : String → String → Prop
  | plain {s : String} (hs : IsPlain s) : ComesTo env s s
  | unclosed {before after : String} (hbefore : IsPlain before) (hafter : '\x7d' ∉ after.toList) :
      ComesTo env (before ++ "$\x7b" ++ after) (before ++ "$\x7b" ++ after)
  | reference {before name value after rest : String} (hbefore : IsPlain before)
      (hname : '\x7d' ∉ name.toList) (hvalue : StandsFor env name value)
      (hrest : ComesTo env after rest) :
      ComesTo env (before ++ "$\x7b" ++ name ++ "\x7d" ++ after) (before ++ value ++ rest)

/-- A piece of a text: characters that stay, or a reference by its name. -/
inductive Piece where
  | stretch (s : String)
  | reference (name : String)

namespace Piece

def written : Piece → String
  | .stretch s => s
  | .reference name => "$\x7b" ++ name ++ "\x7d"

/-- A piece with the value of its variable filled in. -/
def filled (env : Environment) : Piece → String
  | .stretch s => s
  | .reference name => env.value name

end Piece

/-! ## Characters -/

section Characters

variable {env : Environment} {before name rest after : List Char} {c : Char}

theorem splitBrace_of_not_mem (h : '\x7d' ∉ rest) : splitBrace rest = none := by
  induction rest with
  | nil => rfl
  | cons c rest ih =>
    rw [List.mem_cons, not_or] at h
    rw [splitBrace, if_neg (Ne.symm h.1), ih h.2, Option.map_none]

theorem splitBrace_append (h : '\x7d' ∉ name) (after : List Char) :
    splitBrace (name ++ '\x7d' :: after) = some (name, after) := by
  induction name with
  | nil => rfl
  | cons c name ih =>
    rw [List.mem_cons, not_or] at h
    rw [List.cons_append, splitBrace, if_neg (Ne.symm h.1), ih h.2, Option.map_some]

theorem expand_cons (h : ¬['$', '\x7b'] <+: c :: rest) :
    expand env (c :: rest) = c :: expand env rest := by
  rw [expand]
  rintro rest' rfl rfl
  exact h ⟨rest', rfl⟩

theorem expand_unclosed (h : '\x7d' ∉ rest) :
    expand env ('$' :: '\x7b' :: rest) = '$' :: '\x7b' :: rest := by
  have hsplit := splitBrace_of_not_mem h
  rw [expand]
  -- The match hands its equation to the proof of descent, so `hsplit` cannot be rewritten in place.
  split
  · rfl
  · next hsome =>
    rw [hsplit] at hsome
    cases hsome

theorem expand_closed (h : '\x7d' ∉ name) :
    expand env ('$' :: '\x7b' :: (name ++ '\x7d' :: after)) =
      (env.value (String.ofList name)).toList ++ expand env after := by
  have hsplit := splitBrace_append h after
  rw [expand]
  split
  · next hnone =>
    rw [hsplit] at hnone
    cases hnone
  · next hsome =>
    rw [hsplit] at hsome
    obtain ⟨rfl, rfl⟩ := Prod.mk.inj (Option.some.inj hsome)
    rfl

/-- Up to an opening nothing changes. A dollar sign may stand right before the opening, but no brace
right behind the text, or an opening would lie across. -/
theorem expand_append (hbefore : ¬['$', '\x7b'] <:+: before) (hrest : rest.head? ≠ some '\x7b') :
    expand env (before ++ rest) = before ++ expand env rest := by
  induction before with
  | nil => rfl
  | cons c before ih =>
    rw [List.infix_cons_iff, not_or] at hbefore
    have hopen : ¬['$', '\x7b'] <+: c :: (before ++ rest) := by
      intro hacross
      obtain ⟨rfl, tail, hbrace⟩ := List.cons_prefix_cons.mp hacross
      cases before with
      | nil => exact hrest (by rw [← List.nil_append rest, ← hbrace]; rfl)
      | cons d before =>
        obtain ⟨rfl, -⟩ := List.cons.inj hbrace
        exact hbefore.1 ⟨before, rfl⟩
    rw [List.cons_append, expand_cons hopen, ih hbefore.2, List.cons_append]

theorem exists_first_opening {s : List Char} (h : ['$', '\x7b'] <:+: s) :
    ∃ before rest, ¬['$', '\x7b'] <:+: before ∧ s = before ++ '$' :: '\x7b' :: rest := by
  induction s with
  | nil => cases List.eq_nil_of_infix_nil h
  | cons c s ih =>
    by_cases hhere : ['$', '\x7b'] <+: c :: s
    · obtain ⟨rest, hrest⟩ := hhere
      exact ⟨[], rest, by decide, hrest.symm⟩
    · obtain ⟨before, rest, hbefore, rfl⟩ := ih ((List.infix_cons_iff.mp h).resolve_left hhere)
      refine ⟨c :: before, rest, ?_, rfl⟩
      rw [List.infix_cons_iff, not_or]
      exact ⟨fun hopen => hhere (hopen.trans ⟨_, rfl⟩), hbefore⟩

end Characters

/-! ## Cuts -/

section Cuts

variable {env : Environment} {s t before name value after : String}

theorem toList_expand (env : Environment) (s : String) :
    (env.expand s).toList = expand env s.toList := by
  rw [Environment.expand, String.toList_ofList]

theorem expand_of_plain (hs : IsPlain s) : env.expand s = s := by
  have hstays : expand env (s.toList ++ []) = s.toList ++ expand env [] := expand_append hs nofun
  rw [List.append_nil, expand, List.append_nil] at hstays
  exact String.toList_inj.mp ((toList_expand env s).trans hstays)

theorem toList_opened (before after : String) :
    (before ++ "$\x7b" ++ after).toList = before.toList ++ '$' :: '\x7b' :: after.toList := by
  rw [String.toList_append, String.toList_append, List.append_assoc]
  rfl

theorem toList_reference (before name after : String) :
    (before ++ "$\x7b" ++ name ++ "\x7d" ++ after).toList =
      before.toList ++ '$' :: '\x7b' :: (name.toList ++ '\x7d' :: after.toList) := by
  rw [String.append_assoc, String.append_assoc, toList_opened, String.toList_append,
    String.toList_append]
  rfl

theorem expand_of_unclosed (hbefore : IsPlain before) (hafter : '\x7d' ∉ after.toList) :
    env.expand (before ++ "$\x7b" ++ after) = before ++ "$\x7b" ++ after := by
  apply String.toList_inj.mp
  rw [toList_expand, toList_opened, expand_append hbefore (by simp), expand_unclosed hafter]

theorem expand_of_reference (hbefore : IsPlain before) (hname : '\x7d' ∉ name.toList)
    (after : String) :
    env.expand (before ++ "$\x7b" ++ name ++ "\x7d" ++ after) =
      before ++ env.value name ++ env.expand after := by
  apply String.toList_inj.mp
  rw [toList_expand, toList_reference, expand_append hbefore (by simp), expand_closed hname,
    String.ofList_toList, ← toList_expand, String.toList_append, String.toList_append,
    List.append_assoc]

theorem exists_cut (s : String) :
    IsPlain s ∨
      (∃ before after, IsPlain before ∧ '\x7d' ∉ after.toList ∧ s = before ++ "$\x7b" ++ after) ∨
      ∃ before name after, IsPlain before ∧ '\x7d' ∉ name.toList ∧
        s = before ++ "$\x7b" ++ name ++ "\x7d" ++ after := by
  by_cases hs : IsPlain s
  · exact .inl hs
  have htext : ∀ cs : List Char, ∃ t : String, t.toList = cs := fun cs => ⟨_, String.toList_ofList⟩
  obtain ⟨cs, ds, hbefore, hopened⟩ := exists_first_opening (not_not.mp hs)
  obtain ⟨before, rfl⟩ := htext cs
  by_cases hclosed : '\x7d' ∈ ds
  · obtain ⟨ns, es, rfl, hname⟩ := List.eq_append_cons_of_mem hclosed
    obtain ⟨name, rfl⟩ := htext ns
    obtain ⟨after, rfl⟩ := htext es
    refine .inr (.inr ⟨before, name, after, hbefore, hname, String.toList_inj.mp ?_⟩)
    rw [hopened, toList_reference]
  · obtain ⟨after, rfl⟩ := htext ds
    refine .inr (.inl ⟨before, after, hbefore, hclosed, String.toList_inj.mp ?_⟩)
    rw [hopened, toList_opened]

/-- What holds of texts without a reference, and of a text if it holds of what stands behind its
first reference, holds of all. -/
theorem cut_induction {motive : String → Prop} (plain : ∀ s, IsPlain s → motive s)
    (unclosed : ∀ before after, IsPlain before → '\x7d' ∉ after.toList →
      motive (before ++ "$\x7b" ++ after))
    (reference : ∀ before name after, IsPlain before → '\x7d' ∉ name.toList → motive after →
      motive (before ++ "$\x7b" ++ name ++ "\x7d" ++ after))
    (s : String) : motive s := by
  -- Whatever its value, a reference takes its braces with it, so what is left is a shorter text.
  induction hlength : s.length using Nat.strong_induction_on generalizing s with
  | _ n ih =>
    rcases exists_cut s with hs | ⟨before, after, hbefore, hafter, rfl⟩ |
      ⟨before, name, after, hbefore, hname, rfl⟩
    · exact plain s hs
    · exact unclosed before after hbefore hafter
    · refine reference before name after hbefore hname (ih after.length ?_ after rfl)
      have hopening : "$\x7b".length = 2 := rfl
      simp only [String.length_append, hopening] at hlength
      omega

theorem standsFor_iff : StandsFor env name value ↔ value = env.value name := by
  constructor
  · intro h
    cases h with
    | unnamed => rfl
    | unset hunset =>
      have hnone : env.lookup name = none :=
        List.lookup_eq_none_iff.mpr fun p hp => bne_iff_ne.mpr fun heq => hunset p.2 (heq ▸ hp)
      rw [Environment.value, hnone, Option.getD_none, ite_self]
    | set hname hset => rw [Environment.value, if_neg hname, hset, Option.getD_some]
  · rintro rfl
    by_cases hname : name = ""
    · rw [hname]
      exact .unnamed
    · rw [Environment.value, if_neg hname]
      cases hlookup : env.lookup name with
      | some value => exact .set hname hlookup
      | none =>
        refine .unset fun value hmem => ?_
        exact bne_iff_ne.mp (List.lookup_eq_none_iff.mp hlookup _ hmem) rfl

theorem comesTo_expand (env : Environment) (s : String) : ComesTo env s (env.expand s) := by
  induction s using cut_induction with
  | plain s hs =>
    rw [expand_of_plain hs]
    exact .plain hs
  | unclosed before after hbefore hafter =>
    rw [expand_of_unclosed hbefore hafter]
    exact .unclosed hbefore hafter
  | reference before name after hbefore hname ih =>
    rw [expand_of_reference hbefore hname]
    exact .reference hbefore hname (standsFor_iff.mpr rfl) ih

theorem comesTo_iff : ComesTo env s t ↔ t = env.expand s := by
  constructor
  · intro h
    induction h with
    | plain hs => exact (expand_of_plain hs).symm
    | unclosed hbefore hafter => exact (expand_of_unclosed hbefore hafter).symm
    | reference hbefore hname hvalue _ ih =>
      rw [expand_of_reference hbefore hname, standsFor_iff.mp hvalue, ih]
  · rintro rfl
    exact comesTo_expand env s

/-- A text is in pieces before any value is known, and each value goes in as it is. -/
theorem exists_pieces (s : String) :
    ∃ pieces : List Piece, String.join (pieces.map Piece.written) = s ∧
      ∀ env : Environment, env.expand s = String.join (pieces.map (Piece.filled env)) := by
  induction s using cut_induction with
  | plain s hs =>
    refine ⟨[.stretch s], by simp [Piece.written], fun env => ?_⟩
    rw [expand_of_plain hs]
    simp [Piece.filled]
  | unclosed before after hbefore hafter =>
    refine ⟨[.stretch (before ++ "$\x7b" ++ after)], by simp [Piece.written], fun env => ?_⟩
    rw [expand_of_unclosed hbefore hafter]
    simp [Piece.filled]
  | reference before name after hbefore hname ih =>
    obtain ⟨pieces, hwritten, hfilled⟩ := ih
    refine ⟨.stretch before :: .reference name :: pieces, ?_, fun env => ?_⟩
    · simp [Piece.written, hwritten, String.append_assoc]
    · rw [expand_of_reference hbefore hname, hfilled]
      simp [Piece.filled, String.append_assoc]

end Cuts

/-- **Expansion is one pass from left to right.** A text comes to its expansion and to nothing else,
and a reference stands for the value its variable is given. Behind text in which none opens, a
reference gives way to that value, and expansion goes on behind its closing brace. The pieces of a
text are the same in every environment, so what a variable holds is not looked at again. -/
theorem expanded_in_one_pass (env : Environment) (s : String) :
    (∀ t, ComesTo env s t ↔ t = env.expand s) ∧
      (∀ name value, StandsFor env name value ↔ value = env.value name) ∧
      (∀ before name after, IsPlain before → '\x7d' ∉ name.toList →
        s = before ++ "$\x7b" ++ name ++ "\x7d" ++ after →
          env.expand s = before ++ env.value name ++ env.expand after) ∧
      ∃ pieces : List Piece, String.join (pieces.map Piece.written) = s ∧
        ∀ env' : Environment, env'.expand s = String.join (pieces.map (Piece.filled env')) := by
  refine ⟨fun _ => comesTo_iff, fun _ _ => standsFor_iff, ?_, exists_pieces s⟩
  rintro before name after hbefore hname rfl
  exact expand_of_reference hbefore hname after

/-- A dollar sign before the first reference, whose value looks like a reference; in the second one
a name that holds an opening; and an opening that nothing closes. -/
theorem expanded_in_one_pass_of_nested :
    let env : Environment := [("A", "$\x7bB\x7d"), ("B", "b")]
    let after := "/$\x7b$\x7bB\x7d\x7d$\x7bA"
    IsPlain "$" ∧ '\x7d' ∉ "A".toList ∧
      env.expand ("$" ++ "$\x7b" ++ "A" ++ "\x7d" ++ after) = "$$\x7bB\x7d/\x7d$\x7bA" := by
  intro env after
  have hplain : IsPlain "$" := by decide
  have hname : '\x7d' ∉ "A".toList := by decide
  have hopen : ComesTo env "\x7d$\x7bA" "\x7d$\x7bA" :=
    @ComesTo.unclosed env "\x7d" "A" (by decide) (by decide)
  have hrest : ComesTo env after "/\x7d$\x7bA" :=
    @ComesTo.reference env "/" "$\x7bB" "" _ _ (by decide) (by decide) (.unset (by simp [env]))
      hopen
  have hfirst := (expanded_in_one_pass env _).2.2.1 "$" "A" after hplain hname rfl
  have hafter := ((expanded_in_one_pass env after).1 _).mp hrest
  refine ⟨hplain, hname, ?_⟩
  rw [hfirst, ← hafter]
  rfl

end Reference

end WorkflowLint

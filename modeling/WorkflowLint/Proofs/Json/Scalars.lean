import WorkflowLint.Json.Parser
import WorkflowLint.Json.Printer
import WorkflowLint.Proofs.Text.Decoding
import WorkflowLint.Proofs.Text.Words
import Mathlib.Tactic.IntervalCases
/-!
# Reading back strings and integers

A string is read back from behind its first quote, whatever characters are escaped in it
(`readString_quote`). The digits of a natural number of 64 bits are read back where a comma, a
closing bracket or nothing follows them (`readNumber_toDigits`).
-/

namespace WorkflowLint.Json

open Text.Utf8

variable {s rest : List UInt8}

/-! ## Strings -/

/-- A byte that stands for itself in a quoted string. -/
def IsPlain (b : UInt8) : Prop := b ≠ 0x22 ∧ b ≠ 0x5C ∧ ¬ b < 0x20

theorem readQuoted_plain {bs acc : List UInt8} (h : ∀ b ∈ bs, IsPlain b) :
    readQuoted (bs ++ s) acc = readQuoted s (bs.reverse ++ acc) := by
  induction bs generalizing acc with
  | nil => rfl
  | cons b bs ih =>
    obtain ⟨⟨hquote, hescape, hcontrol⟩, hbs⟩ := List.forall_mem_cons.mp h
    rw [List.cons_append, readQuoted, if_neg hquote, if_neg hescape, if_neg hcontrol, ih hbs,
      List.reverse_cons, List.append_assoc, List.singleton_append]

theorem readQuoted_escape (letters acc : List UInt8) {bs : List UInt8}
    (h : readEscape (letters ++ s) = .ok (bs, letters.length)) :
    readQuoted (0x5C :: (letters ++ s)) acc = readQuoted s (bs.reverse ++ acc) := by
  rw [readQuoted, if_neg (by decide), if_pos rfl, h]
  dsimp only
  rw [List.drop_left]

/-- A character that is printed as itself has no byte with a meaning of its own. -/
theorem isPlain_of_mem_encodeChar {c : Char} {b : UInt8} (hquote : c ≠ '"') (hescape : c ≠ '\\')
    (hcontrol : ¬ c.toNat < 0x20) (h : b ∈ encodeChar c) : IsPlain b := by
  have hvalid := toNat_lt_surrogates_or c
  have hquote' : c.toNat ≠ 0x22 := fun heq => hquote (Char.toNat_inj.mp heq)
  have hescape' : c.toNat ≠ 0x5C := fun heq => hescape (Char.toNat_inj.mp heq)
  have hplain {k : Nat} (hk : k < 256) (hquote : k ≠ 0x22) (hescape : k ≠ 0x5C)
      (hcontrol : 0x20 ≤ k) : IsPlain k.toUInt8 := by
    have hnat := toNat_toUInt8 hk
    refine ⟨fun heq => hquote ?_, fun heq => hescape ?_, fun hlt => ?_⟩
    · rw [← hnat, heq]; rfl
    · rw [← hnat, heq]; rfl
    · rw [UInt8.lt_iff_toNat_lt, hnat] at hlt
      exact Nat.not_lt.mpr hcontrol hlt
  rw [encodeChar] at h
  generalize c.toNat = n at *
  -- the bytes of a longer form have the high bit
  split_ifs at h <;> simp only [List.mem_cons, List.not_mem_nil, or_false] at h
  · exact h ▸ hplain (by omega) hquote' hescape' (by omega)
  · rcases h with rfl | rfl <;> exact hplain (by omega) (by omega) (by omega) (by omega)
  · rcases h with rfl | rfl | rfl <;> exact hplain (by omega) (by omega) (by omega) (by omega)
  · rcases h with rfl | rfl | rfl | rfl <;>
      exact hplain (by omega) (by omega) (by omega) (by omega)

theorem readEscape_control {n : Nat} (h : n < 0x20) :
    readEscape (encode ['u', '0', '0', hexDigit (n / 16), hexDigit (n % 16)] ++ s) =
      .ok (encodeChar (Char.ofNat n),
        (encode ['u', '0', '0', hexDigit (n / 16), hexDigit (n % 16)]).length) := by
  interval_cases n <;> rfl

theorem readQuoted_escapeChar (c : Char) (acc : List UInt8) :
    readQuoted (encode (escapeChar c) ++ s) acc = readQuoted s ((encodeChar c).reverse ++ acc) := by
  rw [escapeChar]
  split_ifs with h1 h2 h3 h4 h5 h6 h7 h8
  · subst h1
    exact readQuoted_escape [0x22] acc rfl
  · subst h2
    exact readQuoted_escape [0x5C] acc rfl
  · subst h3
    exact readQuoted_escape [0x6E] acc rfl
  · subst h4
    exact readQuoted_escape [0x72] acc rfl
  · subst h5
    exact readQuoted_escape [0x74] acc rfl
  · obtain rfl : c = Char.ofNat 8 := by rw [← h6, Char.ofNat_toNat]
    exact readQuoted_escape [0x62] acc rfl
  · obtain rfl : c = Char.ofNat 12 := by rw [← h7, Char.ofNat_toNat]
    exact readQuoted_escape [0x66] acc rfl
  · have hread := readQuoted_escape (encode _) acc (readEscape_control (s := s) h8)
    rwa [Char.ofNat_toNat] at hread
  · rw [encode, List.flatMap_singleton]
    exact readQuoted_plain fun b hb => isPlain_of_mem_encodeChar h1 h2 h8 hb

theorem readQuoted_escaped (cs : List Char) (acc rest : List UInt8) :
    readQuoted (encode (cs.flatMap escapeChar) ++ 0x22 :: rest) acc =
      .ok (acc.reverse ++ encode cs, rest) := by
  induction cs generalizing acc with
  | nil =>
    rw [show encode (([] : List Char).flatMap escapeChar) = [] from rfl, List.nil_append, readQuoted,
      if_pos rfl, show encode [] = [] from rfl, List.append_nil]
  | cons c cs ih =>
    rw [List.flatMap_cons, encode_append, List.append_assoc, readQuoted_escapeChar, ih,
      List.reverse_append, List.reverse_reverse, List.append_assoc, encode, encode,
      List.flatMap_cons]

theorem toString?_encode (cs : List Char) : toString? (encode cs) = .ok (String.ofList cs) := by
  rw [toString?, decode?_encode]
  rfl

theorem readString_quote (text : String) :
    readString (encode (text.toList.flatMap escapeChar) ++ 0x22 :: rest) = .ok (text, rest) := by
  have hquoted := readQuoted_escaped text.toList [] rest
  rw [List.reverse_nil, List.nil_append] at hquoted
  rw [readString, hquoted]
  simp only [bind, Except.bind, toString?_encode, String.ofList_toList]

/-! ## Integers -/

/-- What may stand behind a value: a comma, a closing bracket or nothing. -/
def Ends (rest : List UInt8) : Prop := ∀ b ∈ rest.head?, b = 0x2C ∨ b = 0x5D ∨ b = 0x7D

variable {negative : Bool} {digits n : Nat}

theorem encodeChar_digit {c : Char} (h : c.isDigit = true) :
    ∃ b, encodeChar c = [b] ∧ digitValue b = some (c.toNat - 48) := by
  simp only [Char.isDigit, Bool.and_eq_true, decide_eq_true_eq] at h
  have hlow : 48 ≤ c.toNat := h.1
  have hhigh : c.toNat ≤ 57 := h.2
  refine ⟨c.toNat.toUInt8, ?_, ?_⟩
  · rw [encodeChar, if_pos (by omega)]
  · rw [digitValue, toNat_toUInt8 (by omega), if_pos ⟨hlow, hhigh⟩]

theorem digitValue_of_ends {b : UInt8} (h : Ends (b :: rest)) : digitValue b = none := by
  rcases h b rfl with rfl | rfl | rfl <;> rfl

theorem readTail_ends (h : Ends rest) :
    readTail negative digits rest = .ok (wholeNumber negative digits, rest) := by
  cases rest with
  | nil => rfl
  | cons b rest =>
    rw [readTail]
    rcases h b rfl with rfl | rfl | rfl <;> rfl

theorem le_foldl_digits (cs : List Char) (value : Nat) :
    value ≤ cs.foldl (fun n c => n * 10 + (c.toNat - 48)) value := by
  induction cs generalizing value with
  | nil => exact Nat.le_refl _
  | cons c cs ih => exact Nat.le_trans (by omega) (ih (value * 10 + (c.toNat - 48)))

theorem readDigits_encode (negative : Bool) {cs : List Char} (hcs : ∀ c ∈ cs, c.isDigit = true)
    (hmax : cs.foldl (fun n c => n * 10 + (c.toNat - 48)) digits ≤ maxDigits) (hrest : Ends rest) :
    readDigits negative digits (encode cs ++ rest) =
      .ok (wholeNumber negative (cs.foldl (fun n c => n * 10 + (c.toNat - 48)) digits), rest) := by
  induction cs generalizing digits with
  | nil =>
    rw [List.foldl_nil, ← readTail_ends hrest]
    cases rest with
    | nil => rfl
    | cons b rest =>
      change readDigits negative digits (b :: rest) = _
      rw [readDigits, digitValue_of_ends hrest]
  | cons c cs ih =>
    obtain ⟨hc, hcs⟩ := List.forall_mem_cons.mp hcs
    obtain ⟨b, hb, hvalue⟩ := encodeChar_digit hc
    have hle := le_foldl_digits cs (digits * 10 + (c.toNat - 48))
    rw [List.foldl_cons] at hmax ⊢
    rw [encode, List.flatMap_cons, hb, List.singleton_append, List.cons_append, readDigits, hvalue]
    dsimp only
    rw [if_neg (Nat.not_lt.mpr (Nat.le_trans hle hmax))]
    exact ih hcs hmax

theorem ne_of_isDigit {b x : UInt8} (h : (digitValue b).isSome = true) (hx : digitValue x = none) :
    b ≠ x := by
  rintro rfl
  rw [hx] at h
  cases h

theorem isSpace_of_isDigit {b : UInt8} (h : (digitValue b).isSome = true) : isSpace b = false := by
  rw [isSpace, decide_eq_false (ne_of_isDigit h rfl), decide_eq_false (ne_of_isDigit h rfl),
    decide_eq_false (ne_of_isDigit h rfl), decide_eq_false (ne_of_isDigit h rfl)]
  rfl

theorem encode_toDigits (n : Nat) :
    ∃ b bs, encode (Nat.toDigits 10 n) = b :: bs ∧ (digitValue b).isSome = true := by
  obtain ⟨c, cs, heq⟩ := List.exists_cons_of_ne_nil (Nat.toDigits_ne_nil (n := n) (b := 10))
  have hc : c.isDigit = true :=
    Nat.isDigit_of_mem_toDigits (by decide) (by decide) (heq ▸ List.mem_cons_self)
  obtain ⟨b, hb, hvalue⟩ := encodeChar_digit hc
  exact ⟨b, encode cs, by rw [heq, encode, List.flatMap_cons, hb]; rfl, by rw [hvalue]; rfl⟩

theorem toDigits_eq_cons (hn : n ≠ 0) : ∃ c cs, Nat.toDigits 10 n = c :: cs ∧ c.toNat - 48 ≠ 0 := by
  induction n using Nat.strong_induction_on with
  | _ n ih =>
    by_cases hsmall : n < 10
    · refine ⟨n.digitChar, [], Nat.toDigits_of_lt_base hsmall, ?_⟩
      interval_cases n <;> first | contradiction | decide
    · obtain ⟨c, cs, heq, hc⟩ := ih (n / 10) (by omega) (by omega)
      exact ⟨c, _, by rw [Nat.toDigits_of_base_le (by decide) (by omega), heq]; rfl, hc⟩

theorem readNumber_toDigits (negative : Bool) (hn : n ≤ maxDigits) (hrest : Ends rest) :
    readNumber negative (encode (Nat.toDigits 10 n) ++ rest) =
      .ok (wholeNumber negative n, rest) := by
  by_cases hzero : n = 0
  · subst hzero
    rw [← readTail_ends hrest]
    cases rest with
    | nil => rfl
    | cons b rest =>
      change (if (digitValue b).isSome then _ else _) = _
      rw [digitValue_of_ends hrest]
      rfl
  · obtain ⟨c, cs, heq, hc⟩ := toDigits_eq_cons hzero
    have hdigits : ∀ d ∈ c :: cs, d.isDigit = true := fun d hd =>
      Nat.isDigit_of_mem_toDigits (by decide) (by decide) (heq ▸ hd)
    have hvalue := Text.value_digits 0 n
    rw [List.replicate_zero, List.nil_append, heq, List.foldl_cons, Nat.zero_mul, Nat.zero_add]
      at hvalue
    obtain ⟨b, hb, hd⟩ := encodeChar_digit (hdigits c List.mem_cons_self)
    have hread := readDigits_encode negative
      (fun d hd => hdigits d (List.mem_cons_of_mem c hd)) (hvalue.le.trans hn) hrest
    obtain ⟨d, hpos⟩ := Nat.exists_eq_succ_of_ne_zero hc
    rw [hvalue] at hread
    rw [heq, encode, List.flatMap_cons, hb, List.singleton_append, List.cons_append,
      readNumber.eq_def]
    dsimp only
    rw [hd, ← hread, hpos]
    rfl

end WorkflowLint.Json

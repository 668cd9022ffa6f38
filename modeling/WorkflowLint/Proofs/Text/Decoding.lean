import WorkflowLint.Text.Utf8
import Mathlib.Data.List.Basic
/-!
# Reading back encoded text

The bytes of a character are read as that character, whatever was read before, so the bytes of a
text decode to the text. A byte of the first half stands for its own character only, so that a text
can be cut at slashes or line feeds before it is encoded as well as after.
-/

namespace WorkflowLint.Text.Utf8

/-! ## One character -/

theorem toNat_toUInt8 {n : Nat} (h : n < 256) : n.toUInt8.toNat = n := by
  simpa using Nat.mod_eq_of_lt h

theorem toNat_lt_surrogates_or (c : Char) :
    c.toNat < 0xD800 ∨ 0xDFFF < c.toNat ∧ c.toNat < 0x110000 := c.valid

theorem push_pending {ps : List Piece} {bits read missing m : Nat} {low high : UInt8}
    (hm : m < 64) (hlow : low.toNat ≤ 0x80 + m) (hhigh : 0x80 + m ≤ high.toNat) :
    Reader.push { pieces := ps, pending := some ⟨bits, read, missing, low, high⟩ }
        (0x80 + m).toUInt8 =
      if missing = 1 then { pieces := .char (Char.ofNat (bits * 0x40 + m)) :: ps }
      else
        { pieces := ps
          pending := some ⟨bits * 0x40 + m, read + 1, missing - 1, 0x80, 0xBF⟩ } := by
  have hb : (0x80 + m).toUInt8.toNat = 0x80 + m := toNat_toUInt8 (by omega)
  have hrange : low ≤ (0x80 + m).toUInt8 ∧ (0x80 + m).toUInt8 ≤ high := by
    rw [UInt8.le_iff_toNat_le, UInt8.le_iff_toNat_le, hb]
    exact ⟨hlow, hhigh⟩
  have hbits : 0x80 + m - 0x80 = m := by omega
  simp only [Reader.push, hrange, and_self, if_true, hb, hbits]

variable {n : Nat}

theorem push_ascii (hn : n < 0x80) (ps : List Piece) :
    Reader.push { pieces := ps } n.toUInt8 = { pieces := .char (Char.ofNat n) :: ps } := by
  simp only [Reader.push, Reader.begin, toNat_toUInt8 (show n < 256 by omega)]
  rw [if_pos hn]

theorem push_lead_two (hlow : 2 ≤ n) (hhigh : n < 0x20) (ps : List Piece) :
    Reader.push { pieces := ps } (0xC0 + n).toUInt8 =
      { pieces := ps, pending := some ⟨n, 1, 1, 0x80, 0xBF⟩ } := by
  simp only [Reader.push, Reader.begin, toNat_toUInt8 (show 0xC0 + n < 256 by omega)]
  rw [if_neg (by omega), if_pos (by omega), Nat.add_sub_cancel_left]

/-- The first byte of a character of three bytes. Overlong forms and surrogates narrow the range of
the second. -/
theorem push_lead_three (hn : n < 0x10) (ps : List Piece) :
    Reader.push { pieces := ps } (0xE0 + n).toUInt8 =
      { pieces := ps
        pending := some ⟨n, 1, 2, if n = 0 then 0xA0 else 0x80, if n = 0xD then 0x9F else 0xBF⟩ } := by
  simp only [Reader.push, Reader.begin, toNat_toUInt8 (show 0xE0 + n < 256 by omega)]
  rw [if_neg (by omega), if_neg (by omega)]
  by_cases h0 : n = 0
  · subst h0
    rfl
  · by_cases hd : n = 0xD
    · subst hd
      rfl
    · rw [if_neg (by omega), if_neg (by omega), if_pos (by omega), Nat.add_sub_cancel_left,
        if_neg h0, if_neg hd]

/-- The first byte of a character of four bytes. Overlong forms and values past the last code point
narrow the range of the second. -/
theorem push_lead_four (hn : n < 5) (ps : List Piece) :
    Reader.push { pieces := ps } (0xF0 + n).toUInt8 =
      { pieces := ps
        pending := some ⟨n, 1, 3, if n = 0 then 0x90 else 0x80, if n = 4 then 0x8F else 0xBF⟩ } := by
  obtain rfl | rfl | rfl | rfl | rfl : n = 0 ∨ n = 1 ∨ n = 2 ∨ n = 3 ∨ n = 4 := by omega
  all_goals rfl

theorem foldl_push_encodeChar (c : Char) (ps : List Piece) :
    (encodeChar c).foldl Reader.push { pieces := ps } = { pieces := .char c :: ps } := by
  have hvalid := toNat_lt_surrogates_or c
  have hc : Char.ofNat c.toNat = c := Char.ofNat_toNat c
  rw [encodeChar]
  generalize c.toNat = n at hvalid hc
  split_ifs with h1 h2 h3
  · rw [List.foldl_cons, push_ascii h1, hc, List.foldl_nil]
  · rw [List.foldl_cons, push_lead_two (by omega) (by omega), List.foldl_cons,
      push_pending (by omega) (by simp) (by simp; omega), if_pos rfl, List.foldl_nil]
    rw [show n / 0x40 * 0x40 + n % 0x40 = n by omega, hc]
  · rw [List.foldl_cons, push_lead_three (by omega), List.foldl_cons,
      push_pending (by omega) (by split_ifs <;> simp; omega) (by split_ifs <;> simp <;> omega),
      if_neg (by decide), List.foldl_cons,
      push_pending (by omega) (by simp) (by simp; omega), if_pos rfl, List.foldl_nil]
    rw [show (n / 0x1000 * 0x40 + n / 0x40 % 0x40) * 0x40 + n % 0x40 = n by omega, hc]
  · rw [List.foldl_cons, push_lead_four (by omega), List.foldl_cons,
      push_pending (by omega) (by split_ifs <;> simp; omega) (by split_ifs <;> simp <;> omega),
      if_neg (by decide), List.foldl_cons,
      push_pending (by omega) (by simp) (by simp; omega), if_neg (by decide), List.foldl_cons,
      push_pending (by omega) (by simp) (by simp; omega), if_pos rfl, List.foldl_nil]
    rw [show ((n / 0x40000 * 0x40 + n / 0x1000 % 0x40) * 0x40 + n / 0x40 % 0x40) * 0x40 + n % 0x40 = n
      by omega, hc]

/-! ## Texts -/

theorem foldl_push_encode (cs : List Char) (ps : List Piece) :
    (encode cs).foldl Reader.push { pieces := ps } =
      { pieces := (cs.map Piece.char).reverse ++ ps } := by
  induction cs generalizing ps with
  | nil => rfl
  | cons c cs ih =>
    rw [encode, List.flatMap_cons, List.foldl_append, foldl_push_encodeChar, ← encode, ih]
    simp

theorem joinStrict_map_char (cs : List Char) (at_ : Nat) (acc : List Char) :
    joinStrict (cs.map Piece.char) at_ acc = .ok (acc.reverse ++ cs) := by
  induction cs generalizing at_ acc with
  | nil => simp [joinStrict]
  | cons c cs ih => simp [joinStrict, ih]

theorem decode?_encode (cs : List Char) : decode? (encode cs) = .ok cs := by
  rw [decode?, pieces, foldl_push_encode, Reader.finish, List.append_nil, List.reverse_reverse]
  exact joinStrict_map_char cs 0 []

theorem encode_append (cs ds : List Char) : encode (cs ++ ds) = encode cs ++ encode ds :=
  List.flatMap_append

theorem encode_intercalate (d : Char) (ls : List (List Char)) :
    encode ([d].intercalate ls) = (encodeChar d).intercalate (ls.map encode) := by
  induction ls with
  | nil => rfl
  | cons l ls ih =>
    cases ls with
    | nil => simp [List.intercalate]
    | cons next ls =>
      have hd : encode [d] = encodeChar d := List.append_nil _
      simp only [List.intercalate_cons_cons, encode_append, ih, List.map_cons, hd]

theorem decodeLossy_encode (cs : List Char) : decodeLossy (encode cs) = cs := by
  rw [decodeLossy, pieces, foldl_push_encode, Reader.finish, List.append_nil, List.reverse_reverse,
    List.map_map]
  exact List.map_id cs

theorem toStringLossy_ofString (s : String) : toStringLossy (ofString s) = s := by
  rw [toStringLossy, ofString, decodeLossy_encode, String.ofList_toList]

theorem eq_of_mem_encodeChar {c : Char} {b : UInt8} (hb : b < 0x80) (h : b ∈ encodeChar c) :
    c = Char.ofNat b.toNat := by
  have hvalid := toNat_lt_surrogates_or c
  have hlow : b.toNat < 0x80 := UInt8.lt_iff_toNat_lt.mp hb
  have hbyte : ∀ {k : Nat}, k < 256 → b = k.toUInt8 → k = b.toNat := by
    intro k hk h
    rw [h, toNat_toUInt8 hk]
  rw [encodeChar] at h
  rw [← Char.ofNat_toNat c]
  generalize c.toNat = n at hvalid h
  -- the bytes of a longer form have the high bit
  split_ifs at h <;> simp only [List.mem_cons, List.not_mem_nil, or_false] at h
  · rw [hbyte (by omega) h]
  · rcases h with h | h <;> have := hbyte (by omega) h <;> omega
  · rcases h with h | h | h <;> have := hbyte (by omega) h <;> omega
  · rcases h with h | h | h | h <;> have := hbyte (by omega) h <;> omega

theorem lineFeed_mem_encodeChar {c : Char} (h : 0x0A ∈ encodeChar c) : c = '\n' :=
  eq_of_mem_encodeChar (by decide) h

theorem lineFeed_not_mem_encode {cs : List Char} (h : '\n' ∉ cs) : 0x0A ∉ encode cs := by
  intro hmem
  obtain ⟨c, hc, hb⟩ := List.mem_flatMap.mp hmem
  exact h (lineFeed_mem_encodeChar hb ▸ hc)

end WorkflowLint.Text.Utf8

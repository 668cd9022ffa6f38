import WorkflowLint.Proofs.Text.Decoding
import WorkflowLint.Proofs.Text.Words
import WorkflowLint.Server.Frame
/-!
# Blocks of headers

What a header line may look like is said here without its reader: a line that gives the length has
the name in any case and a number, each among blanks, and any other text counts that is not blank
and does not name the length. A packet is a block of such lines, a blank line and a body as long as
the last length says. Off a stream that begins with a packet the reader takes the packet and no
more (`next_packet`), whatever the body.
-/

namespace WorkflowLint

namespace Frame

/-! ## Lines -/

/-- A number in decimal digits, perhaps behind zeros and a plus sign. -/
def Numeral (n : Nat) (cs : List Char) : Prop :=
  ∃ zeros, cs = List.replicate zeros '0' ++ Nat.toDigits 10 n ∨
    cs = '+' :: (List.replicate zeros '0' ++ Nat.toDigits 10 n)

/-- A line that gives the length: its name in any case and a number of 64 bits, each among blanks. -/
inductive LengthLine (n : Nat) : List Char → Prop
  | mk {name key numeral value : List Char} (hname : name.map Char.toLower = lengthName)
      (hkey : Text.Amid name key) (hnumeral : Numeral n numeral)
      (hn : n < 0x10000000000000000) (hvalue : Text.Amid numeral value) :
      LengthLine n (key ++ ':' :: value)

/-- A line about something else: it is not blank, and what it has before a colon is not the name of
the length. -/
structure OtherLine (cs : List Char) : Prop where
  notBlank : Text.allBlank cs = false
  notLength : ∀ key value, cs = key ++ ':' :: value → ':' ∉ key →
    (Text.trim key).map Char.toLower ≠ lengthName

/-- A header line with the length it gives, if any. -/
inductive HeaderLine : Option Nat → List Char → Prop
  | length {n : Nat} {cs : List Char} (h : LengthLine n cs) : HeaderLine (some n) cs
  | other {cs : List Char} (h : OtherLine cs) : HeaderLine none cs

theorem isDigit_of_mem_digits {zeros n : Nat} {c : Char}
    (hc : c ∈ List.replicate zeros '0' ++ Nat.toDigits 10 n) : c.isDigit = true := by
  rcases List.mem_append.mp hc with hc | hc
  · rw [(List.mem_replicate.mp hc).2]
    rfl
  · exact Nat.isDigit_of_mem_toDigits (by decide) (by decide) hc

theorem number?_numeral {n : Nat} {cs : List Char} (h : Numeral n cs)
    (hn : n < 0x10000000000000000) : number? cs = some n := by
  obtain ⟨zeros, h⟩ := h
  generalize hds : List.replicate zeros '0' ++ Nat.toDigits 10 n = ds at h
  have hne : ds ≠ [] := by
    rw [← hds]
    exact List.append_ne_nil_of_right_ne_nil _ Nat.toDigits_ne_nil
  have hdigit : ∀ c ∈ ds, c.isDigit = true := by
    rw [← hds]
    exact fun c => isDigit_of_mem_digits
  have hvalue : ds.foldl (fun n c => n * 10 + (c.toNat - 48)) 0 = n := by
    rw [← hds, Text.value_digits]
  rcases h with rfl | rfl
  · unfold number?
    split
    · next rest =>
      have hplus := hdigit '+' List.mem_cons_self
      cases hplus
    · simp [hne, List.all_eq_true.mpr hdigit, hvalue, hn]
  · simp [number?, hne, List.all_eq_true.mpr hdigit, hvalue, hn]

theorem isBlank_of_numeral {n : Nat} {cs : List Char} (h : Numeral n cs) :
    ∀ c ∈ cs, Text.isBlank c = false := by
  have hdigits : ∀ zeros, ∀ c ∈ List.replicate zeros '0' ++ Nat.toDigits 10 n,
      Text.isBlank c = false :=
    fun zeros c hc => Text.isBlank_of_isDigit (isDigit_of_mem_digits hc)
  obtain ⟨zeros, rfl | rfl⟩ := h
  · exact hdigits zeros
  · exact List.forall_mem_cons.mpr ⟨rfl, hdigits zeros⟩

theorem toLower_of_isBlank {c : Char} (h : Text.isBlank c = true) : c.toLower = c := by
  refine dif_neg fun hupper => ?_
  have low : 65 ≤ c.toNat := hupper.1
  have high : c.toNat ≤ 90 := hupper.2
  simp [Text.isBlank] at h
  omega

theorem not_mem_of_lengthName {name : List Char} (h : name.map Char.toLower = lengthName) :
    (∀ c ∈ name, Text.isBlank c = false) ∧ ':' ∉ name := by
  have hmem : ∀ c ∈ name, c.toLower ∈ lengthName :=
    fun c hc => h ▸ List.mem_map_of_mem hc
  have hclear : lengthName.all (fun c => !Text.isBlank c) = true := by decide
  refine ⟨fun c hc => ?_, fun hc => absurd (hmem _ hc) (by decide)⟩
  cases hblank : Text.isBlank c with
  | false => rfl
  | true =>
    have hlow := List.all_eq_true.mp hclear _ (hmem c hc)
    rw [toLower_of_isBlank hblank, hblank] at hlow
    exact hlow.symm

theorem colon_not_mem_of_blank {cs : List Char} (h : Text.allBlank cs = true) : ':' ∉ cs :=
  fun hc => absurd (List.all_eq_true.mp h _ hc) (by decide)

theorem ne_colon {key : List Char} (h : ':' ∉ key) : ∀ c ∈ key, decide (c ≠ ':') = true :=
  fun _ hc => decide_eq_true (ne_of_mem_of_not_mem hc h)

theorem takeWhile_colon {key value : List Char} (h : ':' ∉ key) :
    (key ++ ':' :: value).takeWhile (· ≠ ':') = key := by
  rw [List.takeWhile_append_of_pos (ne_colon h), List.takeWhile_cons_of_neg (by decide),
    List.append_nil]

theorem length?_colon {key value : List Char} (h : ':' ∉ key) :
    length? (key ++ ':' :: value) =
      if (Text.trim key).map Char.toLower = lengthName then
        some ((number? (Text.trim value)).elim
          (.error (.badLength (String.ofList (Text.trim value)))) .ok)
      else none := by
  have hdrop : (key ++ ':' :: value).dropWhile (· ≠ ':') = ':' :: value := by
    rw [List.dropWhile_append_of_pos (ne_colon h)]
    exact List.dropWhile_cons_of_neg (by decide)
  simp only [length?, hdrop, takeWhile_colon h]
  cases number? (Text.trim value) with
  | none => rfl
  | some n => rfl

theorem otherLine_colon {key value : List Char} (hkey : ':' ∉ key)
    (hname : (Text.trim key).map Char.toLower ≠ lengthName) : OtherLine (key ++ ':' :: value) where
  notBlank := Bool.eq_false_iff.mpr fun hblank => colon_not_mem_of_blank hblank (by simp)
  notLength key' value' h hkey' := by rwa [← takeWhile_colon hkey', ← h, takeWhile_colon hkey]

theorem length?_of_colon_not_mem {cs : List Char} (h : ':' ∉ cs) : length? cs = none := by
  unfold length?
  rw [List.dropWhile_eq_nil_iff.mpr (ne_colon h)]

variable {n : Nat} {cs : List Char}

theorem length?_lengthLine (h : LengthLine n cs) : length? (Text.trim cs) = some (.ok n) := by
  obtain ⟨hname, hkey, hnumeral, hn, hvalue⟩ := h
  rename_i name key numeral value
  obtain ⟨hblank, hcolon⟩ := not_mem_of_lengthName hname
  have hsplit : Text.trim (key ++ ':' :: value) = Text.trimStart key ++ ':' :: Text.trimEnd value := by
    rw [Text.trim, Text.trimStart_append_cons (by decide), Text.trimEnd_append_cons (by decide)]
  have hstart : ':' ∉ Text.trimStart key := by
    obtain ⟨before, after, hbefore, hafter, rfl⟩ := hkey
    intro hc
    have hc := (List.dropWhile_sublist _).subset hc
    rw [List.mem_append, List.mem_append] at hc
    exact hc.elim (·.elim (colon_not_mem_of_blank hbefore) hcolon) (colon_not_mem_of_blank hafter)
  rw [hsplit, length?_colon hstart, Text.trim_trimStart, hkey.trim_eq hblank, if_pos hname,
    Text.trim_trimEnd, hvalue.trim_eq (isBlank_of_numeral hnumeral), number?_numeral hnumeral hn,
    Option.elim_some]

theorem length?_otherLine (h : OtherLine cs) : length? (Text.trim cs) = none := by
  by_cases hcolon : ':' ∈ Text.trim cs
  · obtain ⟨key, value, htrim, hkey⟩ := List.eq_append_cons_of_mem hcolon
    obtain ⟨before, after, hbefore, -, hcs⟩ := Text.amid_trim cs
    have hname := h.notLength (before ++ key) (value ++ after)
      (by rw [hcs, htrim]; simp)
      (by simp [colon_not_mem_of_blank hbefore, hkey])
    rw [← Text.trim_trimStart, Text.trimStart_blank_append hbefore, Text.trim_trimStart] at hname
    rw [htrim, length?_colon hkey, if_neg hname]
  · exact length?_of_colon_not_mem hcolon

/-! ## Blocks -/

/-- A header line of a block, with the length it gives, if any. -/
structure Header where
  text : List Char
  gives : Option Nat
  line : HeaderLine gives text
  oneLine : '\n' ∉ text

def lineBytes (cs : List Char) : List UInt8 := Text.Utf8.encode cs ++ [0x0A]

/-- A block of headers, the blank line that ends it and a body, as long as the last length given. -/
structure Packet where
  headers : List Header
  ending : List Char
  body : List UInt8
  blank : Text.allBlank ending = true
  oneLine : '\n' ∉ ending
  counted : (headers.filterMap Header.gives).getLast? = some body.length
  fits : body.length ≤ maxLength

namespace Packet

/-- The bytes of the lines before the body. -/
def block (p : Packet) : List UInt8 :=
  p.headers.flatMap (lineBytes ·.text) ++ lineBytes p.ending

def bytes (p : Packet) : List UInt8 := p.block ++ p.body

end Packet

section Reading

variable {closed started : Bool} {length : Option Nat} {s line rest : List UInt8}

theorem takeLine_append (h : 0x0A ∉ s) :
    takeLine closed (s ++ 0x0A :: rest) = some (s ++ [0x0A], rest) := by
  have hne : ∀ b ∈ s, decide (b ≠ 0x0A) = true :=
    fun _ hb => decide_eq_true (ne_of_mem_of_not_mem hb h)
  have hdrop : (s ++ 0x0A :: rest).dropWhile (· ≠ 0x0A) = 0x0A :: rest := by
    rw [List.dropWhile_append_of_pos hne]
    exact List.dropWhile_cons_of_neg (by decide)
  have htake : (s ++ 0x0A :: rest).takeWhile (· ≠ 0x0A) = s := by
    rw [List.takeWhile_append_of_pos hne, List.takeWhile_cons_of_neg (by decide), List.append_nil]
  unfold takeLine
  rw [hdrop, htake]

theorem takeLine_closed (h : 0x0A ∉ s) :
    takeLine true s = if s = [] then none else some (s, []) := by
  have hdrop : s.dropWhile (· ≠ 0x0A) = [] :=
    List.dropWhile_eq_nil_iff.mpr fun _ hb => decide_eq_true (ne_of_mem_of_not_mem hb h)
  unfold takeLine
  rw [hdrop]
  by_cases hs : s = [] <;> simp [hs]

theorem headers_line (h : takeLine closed s = some (line, rest)) :
    headers closed length started s =
      match Text.Utf8.decode? line with
      | .error m => .broken (.notText m)
      | .ok cs =>
        match Text.trim cs with
        | [] =>
          match length with
          | none => .broken .noLength
          | some n => .block n rest
        | header =>
          match length? header with
          | none => headers closed length true rest
          | some (.ok n) => headers closed (some n) true rest
          | some (.error f) => .broken f := by
  rw [headers]
  split
  · next hnone => rw [h] at hnone; cases hnone
  · next line' rest' hsome =>
    rw [h] at hsome
    obtain ⟨rfl, rfl⟩ := Prod.mk.injEq .. ▸ Option.some.inj hsome
    rfl

end Reading

theorem takeLine_lineBytes {closed : Bool} {cs : List Char} (h : '\n' ∉ cs) (rest : List UInt8) :
    takeLine closed (lineBytes cs ++ rest) = some (lineBytes cs, rest) := by
  rw [lineBytes, List.append_assoc, List.singleton_append,
    takeLine_append (Text.Utf8.lineFeed_not_mem_encode h)]

theorem decode?_lineBytes (cs : List Char) :
    Text.Utf8.decode? (lineBytes cs) = .ok (cs ++ ['\n']) := by
  rw [← Text.Utf8.decode?_encode, Text.Utf8.encode_append]
  rfl

theorem trim_append_lineFeed (cs : List Char) : Text.trim (cs ++ ['\n']) = Text.trim cs :=
  Text.trim_append_blank (by decide)

theorem HeaderLine.trim_ne_nil {gives : Option Nat} {cs : List Char} (h : HeaderLine gives cs) :
    Text.trim cs ≠ [] := by
  rw [Ne, Text.trim_eq_nil_iff, Bool.not_eq_true]
  cases h with
  | length h =>
    obtain ⟨-, -, -, -, -⟩ := h
    exact Bool.eq_false_iff.mpr fun hblank => colon_not_mem_of_blank hblank (by simp)
  | other h => exact h.notBlank

theorem length?_headerLine {gives : Option Nat} {cs : List Char} (h : HeaderLine gives cs) :
    length? (Text.trim cs) = gives.map .ok := by
  cases h with
  | length h => exact length?_lengthLine h
  | other h => exact length?_otherLine h

variable {closed started : Bool} {length : Option Nat} {rest : List UInt8}

theorem headers_header (h : Header) :
    headers closed length started (lineBytes h.text ++ rest) =
      headers closed (h.gives.or length) true rest := by
  rw [headers_line (takeLine_lineBytes h.oneLine rest), decode?_lineBytes]
  simp only [trim_append_lineFeed]
  split
  · next hnil => exact absurd hnil h.line.trim_ne_nil
  · rw [length?_headerLine h.line]
    cases h.gives <;> rfl

theorem headers_ending {cs : List Char} (hblank : Text.allBlank cs = true) (hline : '\n' ∉ cs) (n : Nat) :
    headers closed (some n) started (lineBytes cs ++ rest) = .block n rest := by
  rw [headers_line (takeLine_lineBytes hline rest), decode?_lineBytes]
  simp only [trim_append_lineFeed, Text.trim_of_blank hblank]

theorem headers_flatMap (hs : List Header) (length : Option Nat) (started : Bool) :
    ∃ started', headers closed length started (hs.flatMap (lineBytes ·.text) ++ rest) =
      headers closed ((hs.filterMap Header.gives).getLast?.or length) started' rest := by
  induction hs generalizing length started with
  | nil => exact ⟨started, rfl⟩
  | cons h hs ih =>
    obtain ⟨started', hrest⟩ := ih (h.gives.or length) true
    refine ⟨started', ?_⟩
    rw [List.flatMap_cons, List.append_assoc, headers_header, hrest, List.filterMap_cons]
    cases h.gives with
    | none => rfl
    | some n => rw [List.getLast?_cons]; cases (hs.filterMap Header.gives).getLast? <;> rfl

theorem headers_block (p : Packet) (rest : List UInt8) :
    headers closed none false (p.block ++ rest) = .block p.body.length rest := by
  rw [Packet.block, List.append_assoc]
  obtain ⟨started', hheaders⟩ := headers_flatMap p.headers none false
  rw [hheaders, p.counted]
  exact headers_ending p.blank p.oneLine _

/-- Off a stream that begins with a packet its block and its body are taken, and no more, whether the
body is JSON or not. -/
theorem next_packet (p : Packet) (closed : Bool) (rest : List UInt8) :
    next closed (p.bytes ++ rest) = .body (Json.parse p.body) rest := by
  rw [next, Packet.bytes, List.append_assoc, headers_block]
  have hfits := p.fits
  simp only [List.length_append, List.take_left', List.drop_left']
  rw [if_neg (by omega), if_neg (by omega)]

end Frame

end WorkflowLint

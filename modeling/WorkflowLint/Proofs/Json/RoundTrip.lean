import WorkflowLint.Proofs.Json.Scalars
/-!
# Reading back values

A value that nests no deeper than the reader goes, with no number but integers of 64 bits, is read
back from its text (`parse_toBytes`); only the fields of its objects come back in ascending order.
By induction on the value it is read back wherever a comma, a closing bracket or nothing follows
(`Plain.takes`).
-/

namespace WorkflowLint.Json

open Text.Utf8

variable {s rest : List UInt8}

/-! ## The text of a value -/

theorem ofString_append (s t : String) : ofString (s ++ t) = ofString s ++ ofString t := by
  rw [ofString, String.toList_append, encode_append]
  rfl

theorem ofString_quote (text : String) :
    ofString (quote text) = 0x22 :: (encode (text.toList.flatMap escapeChar) ++ [0x22]) := by
  rw [quote, ofString_append, ofString_append]
  rw [show ofString (String.ofList (text.toList.flatMap escapeChar)) =
    encode (text.toList.flatMap escapeChar) by rw [ofString, String.toList_ofList]]
  rfl

theorem toBytes_nat (n : Nat) : toBytes (.number (.int n)) = encode (Nat.toDigits 10 n) := by
  rw [toBytes, render, Number.text, ofString]
  change encode (toString n).toList = _
  rw [Nat.toString_eq_ofList_toDigits, String.toList_ofList]

theorem toBytes_negSucc (n : Nat) :
    toBytes (.number (.int (Int.negSucc n))) = 0x2D :: encode (Nat.toDigits 10 (n + 1)) := by
  rw [toBytes, render, Number.text]
  change ofString ("-" ++ toString (n + 1)) = _
  rw [ofString_append, Nat.toString_eq_ofList_toDigits]
  rw [show ofString (String.ofList (Nat.toDigits 10 (n + 1))) = encode (Nat.toDigits 10 (n + 1)) by
    rw [ofString, String.toList_ofList]]
  rfl

theorem toBytes_string (text : String) : toBytes (.string text) =
    0x22 :: (encode (text.toList.flatMap escapeChar) ++ [0x22]) := by
  rw [toBytes, render, ofString_quote]

theorem toBytes_array (items : List Json) :
    toBytes (.array items) = 0x5B :: (ofString (renderItems items) ++ [0x5D]) := by
  rw [toBytes, render, ofString_append, ofString_append]
  rfl

theorem toBytes_fields (fs : List (String × Json)) :
    toBytes (.fields fs) = 0x7B :: (ofString (renderFields fs) ++ [0x7D]) := by
  rw [toBytes, render, ofString_append, ofString_append]
  rfl

theorem renderItems_single (v : Json) : ofString (renderItems [v]) = toBytes v := rfl

theorem renderItems_cons (v w : Json) (items : List Json) :
    ofString (renderItems (v :: w :: items)) =
      toBytes v ++ 0x2C :: ofString (renderItems (w :: items)) := by
  rw [renderItems, ofString_append, ofString_append, List.append_assoc]
  · rfl
  · nofun

theorem renderItems_prefix (v : Json) (items : List Json) :
    ∃ bs, ofString (renderItems (v :: items)) = toBytes v ++ bs := by
  cases items with
  | nil => exact ⟨[], (List.append_nil _).symm⟩
  | cons w items => exact ⟨_, renderItems_cons v w items⟩

/-- A value that the reader can take: its numbers are integers of 64 bits, and it nests at most so
deep. -/
inductive Plain : Nat → Json → Prop
  | null {depth : Nat} : Plain depth .null
  | bool {depth : Nat} (b : Bool) : Plain depth (.bool b)
  | int {depth : Nat} {n : Int} (hlow : -0x8000000000000000 ≤ n) (hhigh : n ≤ maxDigits) :
      Plain depth (.number (.int n))
  | string {depth : Nat} (s : String) : Plain depth (.string s)
  | array {depth : Nat} {items : List Json} (h : ∀ v ∈ items, Plain depth v) :
      Plain (depth + 1) (.array items)
  | fields {depth : Nat} {fs : List (String × Json)} (h : ∀ f ∈ fs, Plain depth f.2) :
      Plain (depth + 1) (.fields fs)

mutual

/-- The value with the fields of its objects in order. -/
def ordered : Json → Json
  | .array items => .array (orderedItems items)
  | .fields fs => object (orderedFields fs)
  | v => v

def orderedItems : List Json → List Json
  | [] => []
  | v :: rest => ordered v :: orderedItems rest

def orderedFields : List (String × Json) → List (String × Json)
  | [] => []
  | (k, v) :: rest => (k, ordered v) :: orderedFields rest

end

theorem orderedItems_eq_map (items : List Json) : orderedItems items = items.map ordered := by
  induction items with
  | nil => rfl
  | cons v items ih => rw [orderedItems, ih, List.map_cons]

theorem orderedFields_eq_map (fs : List (String × Json)) :
    orderedFields fs = fs.map fun f => (f.1, ordered f.2) := by
  induction fs with
  | nil => rfl
  | cons f fs ih => rw [orderedFields, ih, List.map_cons]

theorem skipSpace_cons {b : UInt8} (h : isSpace b = false) : skipSpace (b :: s) = b :: s :=
  List.dropWhile_cons_of_neg (by rw [h]; decide)

theorem Plain.toBytes_eq_cons {depth : Nat} {v : Json} (h : Plain depth v) :
    ∃ b bs, toBytes v = b :: bs ∧ isSpace b = false ∧ b ≠ 0x5D := by
  cases h with
  | null => exact ⟨_, _, rfl, rfl, by decide⟩
  | bool b => cases b <;> exact ⟨_, _, rfl, rfl, by decide⟩
  | @int _ n _ _ =>
    cases n with
    | ofNat n =>
      obtain ⟨b, bs, heq, hb⟩ := encode_toDigits n
      exact ⟨b, bs, (toBytes_nat n).trans heq, isSpace_of_isDigit hb, ne_of_isDigit hb rfl⟩
    | negSucc n => exact ⟨_, _, toBytes_negSucc n, rfl, by decide⟩
  | string s => exact ⟨_, _, toBytes_string s, rfl, by decide⟩
  | array _ => exact ⟨_, _, toBytes_array _, rfl, by decide⟩
  | fields _ => exact ⟨_, _, toBytes_fields _, rfl, by decide⟩

theorem Plain.toBytes_ne_nil {depth : Nat} {v : Json} (h : Plain depth v) : toBytes v ≠ [] := by
  obtain ⟨b, bs, heq, -⟩ := h.toBytes_eq_cons
  rw [heq]
  nofun

/-! ## Values -/

variable {item : List UInt8 → Except Failure (Json × List UInt8)} {fuel depth : Nat} {v : Json}

/-- A reader takes the value from its text, up to where it ends. -/
def Takes (item : List UInt8 → Except Failure (Json × List UInt8)) (v : Json) : Prop :=
  ∀ rest, Ends rest → item (toBytes v ++ rest) = .ok (v.ordered, rest)

theorem readValue_digit {b : UInt8} (h : (digitValue b).isSome = true) :
    readValue fuel depth (b :: s) =
      (readNumber false (b :: s)).bind fun (n, rest) => .ok (.number n, rest) := by
  rw [readValue.eq_def]
  dsimp only
  rw [skipSpace_cons (isSpace_of_isDigit h)]
  dsimp only
  rw [if_neg (ne_of_isDigit h rfl), if_neg (ne_of_isDigit h rfl), if_neg (ne_of_isDigit h rfl),
    if_neg (ne_of_isDigit h rfl), if_pos h]
  rfl

theorem takes_int {n : Int} (hlow : -0x8000000000000000 ≤ n) (hhigh : n ≤ maxDigits) :
    Takes (readValue fuel depth) (.number (.int n)) := by
  intro rest hrest
  cases n with
  | ofNat n =>
    obtain ⟨b, bs, heq, hb⟩ := encode_toDigits n
    have hread := readNumber_toDigits false (Int.ofNat_le.mp hhigh) hrest
    rw [heq, List.cons_append] at hread
    have hbytes : toBytes (.number (.int (Int.ofNat n))) = b :: bs := (toBytes_nat n).trans heq
    rw [hbytes, List.cons_append, readValue_digit hb, hread]
    rfl
  | negSucc n =>
    have hread := readNumber_toDigits true (n := n + 1) (by rw [maxDigits]; omega) hrest
    have hwhole : wholeNumber true (n + 1) = .int (Int.negSucc n) := by
      rw [wholeNumber, if_neg (by decide), if_pos (by omega)]
      rfl
    rw [toBytes_negSucc, List.cons_append, readValue.eq_def]
    dsimp only
    rw [skipSpace_cons rfl]
    dsimp only
    rw [if_neg (by decide), if_neg (by decide), if_neg (by decide), if_pos rfl, hread, hwhole]
    rfl

theorem takes_string (text : String) : Takes (readValue fuel depth) (.string text) := by
  intro rest _
  rw [toBytes_string, List.cons_append, List.append_assoc, readValue.eq_def]
  dsimp only
  rw [skipSpace_cons rfl]
  dsimp only
  rw [if_neg (by decide), if_neg (by decide), if_neg (by decide), if_neg (by decide),
    if_neg (by decide), if_pos rfl, List.singleton_append, readString_quote]
  rfl

theorem readItems_last {acc : List Json} (h : item s = .ok (v, 0x5D :: rest)) :
    readItems item (fuel + 1) s acc = .ok ((v :: acc).reverse, rest) := by
  rw [readItems, h]
  simp only [bind, Except.bind]
  rw [skipSpace_cons rfl]
  dsimp only
  rw [if_pos rfl]

theorem readItems_next {acc : List Json} {b : UInt8} (h : item s = .ok (v, 0x2C :: b :: rest))
    (hspace : isSpace b = false) (hclose : b ≠ 0x5D) :
    readItems item (fuel + 1) s acc = readItems item fuel (b :: rest) (v :: acc) := by
  rw [readItems, h]
  simp only [bind, Except.bind]
  rw [skipSpace_cons rfl]
  dsimp only
  rw [if_neg (by decide), if_pos rfl, skipSpace_cons hspace]
  split
  · next heq => cases heq
  · next heq => exact absurd (List.cons.inj heq).1 hclose
  · rfl

theorem ends_cons {b : UInt8} (h : b = 0x2C ∨ b = 0x5D ∨ b = 0x7D) : Ends (b :: rest) := by
  rintro c ⟨⟩
  exact h

theorem readItems_renderItems {items : List Json} (acc : List Json) (rest : List UInt8)
    (htakes : ∀ w ∈ v :: items, Takes item w)
    (hhead : ∀ w ∈ items, ∃ b bs, toBytes w = b :: bs ∧ isSpace b = false ∧ b ≠ 0x5D)
    (hfuel : items.length < fuel) :
    readItems item fuel (ofString (renderItems (v :: items)) ++ 0x5D :: rest) acc =
      .ok (acc.reverse ++ (v :: items).map ordered, rest) := by
  induction items generalizing fuel v acc with
  | nil =>
    obtain ⟨fuel, rfl⟩ := Nat.exists_eq_succ_of_ne_zero (Nat.ne_zero_of_lt hfuel)
    have hread := htakes v List.mem_cons_self (0x5D :: rest) (ends_cons (by decide))
    rw [renderItems_single, readItems_last hread, List.reverse_cons]
    rfl
  | cons w items ih =>
    obtain ⟨fuel, rfl⟩ := Nat.exists_eq_succ_of_ne_zero (Nat.ne_zero_of_lt hfuel)
    obtain ⟨b, bs, hb, hspace, hclose⟩ := hhead w List.mem_cons_self
    obtain ⟨tail, htail⟩ := renderItems_prefix w items
    have hread := htakes v List.mem_cons_self
      (0x2C :: (ofString (renderItems (w :: items)) ++ 0x5D :: rest)) (ends_cons (by decide))
    have hnext := ih (v := w) (v.ordered :: acc)
      (fun u hu => htakes u (List.mem_cons_of_mem v hu))
      (fun u hu => hhead u (List.mem_cons_of_mem w hu)) (Nat.lt_of_succ_lt_succ hfuel)
    rw [htail, hb, List.cons_append, List.cons_append] at hread hnext
    rw [renderItems_cons, List.append_assoc, List.cons_append, htail, hb, List.cons_append,
      List.cons_append, readItems_next hread hspace hclose, hnext, List.reverse_cons,
      List.append_assoc]
    rfl

/-! ### Objects -/

theorem renderFields_single (key : String) (v : Json) : ofString (renderFields [(key, v)]) =
    0x22 :: (encode (key.toList.flatMap escapeChar) ++ 0x22 :: 0x3A :: toBytes v) := by
  rw [renderFields, ofString_append, ofString_append, ofString_quote, List.append_assoc,
    List.cons_append, List.append_assoc]
  rfl

theorem renderFields_cons (key : String) (v : Json) (f : String × Json)
    (fs : List (String × Json)) : ofString (renderFields ((key, v) :: f :: fs)) =
      0x22 :: (encode (key.toList.flatMap escapeChar) ++ 0x22 :: 0x3A :: (toBytes v ++
        0x2C :: ofString (renderFields (f :: fs)))) := by
  rw [renderFields, ofString_append, ofString_append, ofString_append, ofString_append,
    ofString_quote]
  · simp only [List.append_assoc, List.cons_append]
    rfl
  · nofun

theorem renderFields_head (f : String × Json) (fs : List (String × Json)) :
    ∃ bs, ofString (renderFields (f :: fs)) = 0x22 :: bs := by
  obtain ⟨key, v⟩ := f
  cases fs with
  | nil => exact ⟨_, renderFields_single key v⟩
  | cons g fs => exact ⟨_, renderFields_cons key v g fs⟩

theorem readFields_field {key : String} {acc : List (String × Json)} {w : Json} {b : UInt8}
    (h : item s = .ok (w, b :: rest)) (hb : isSpace b = false) :
    readFields item (fuel + 1)
        (0x22 :: (encode (key.toList.flatMap escapeChar) ++ 0x22 :: 0x3A :: s)) acc =
      if b = 0x7D then .ok (((key, w) :: acc).reverse, rest)
      else if b = 0x2C then
        match skipSpace rest with
        | [] => failAt .endOfValue []
        | 0x7D :: rest => failAt .trailingComma (0x7D :: rest)
        | next => readFields item fuel next ((key, w) :: acc)
      else failAt .noObjectEnd (b :: rest) := by
  rw [readFields]
  simp only [readString_quote, bind, Except.bind]
  rw [skipSpace_cons rfl]
  simp only [h]
  generalize hskip : skipSpace (b :: rest) = after
  obtain rfl := (skipSpace_cons hb).symm.trans hskip
  rfl

theorem readFields_renderFields {f : String × Json} {fs : List (String × Json)}
    (acc : List (String × Json)) (rest : List UInt8)
    (htakes : ∀ g ∈ f :: fs, Takes item g.2) (hfuel : fs.length < fuel) :
    readFields item fuel (ofString (renderFields (f :: fs)) ++ 0x7D :: rest) acc =
      .ok (acc.reverse ++ (f :: fs).map (fun g => (g.1, g.2.ordered)), rest) := by
  induction fs generalizing fuel f acc with
  | nil =>
    obtain ⟨fuel, rfl⟩ := Nat.exists_eq_succ_of_ne_zero (Nat.ne_zero_of_lt hfuel)
    obtain ⟨key, v⟩ := f
    have hread := htakes (key, v) List.mem_cons_self (0x7D :: rest) (ends_cons (by decide))
    rw [renderFields_single, List.cons_append, List.append_assoc, List.cons_append,
      List.cons_append, readFields_field hread rfl, if_pos rfl, List.reverse_cons]
    rfl
  | cons g fs ih =>
    obtain ⟨fuel, rfl⟩ := Nat.exists_eq_succ_of_ne_zero (Nat.ne_zero_of_lt hfuel)
    obtain ⟨key, v⟩ := f
    obtain ⟨tail, htail⟩ := renderFields_head g fs
    have hread := htakes (key, v) List.mem_cons_self
      (0x2C :: (ofString (renderFields (g :: fs)) ++ 0x7D :: rest)) (ends_cons (by decide))
    have hnext := ih (f := g) ((key, v.ordered) :: acc)
      (fun u hu => htakes u (List.mem_cons_of_mem _ hu)) (Nat.lt_of_succ_lt_succ hfuel)
    rw [htail, List.cons_append] at hread hnext
    rw [renderFields_cons, List.cons_append, List.append_assoc, List.cons_append,
      List.cons_append, List.append_assoc, List.cons_append, htail, List.cons_append,
      readFields_field hread rfl, if_neg (by decide), if_pos rfl, skipSpace_cons rfl]
    change readFields item fuel (0x22 :: (tail ++ 0x7D :: rest)) ((key, v.ordered) :: acc) = _
    rw [hnext, List.reverse_cons, List.append_assoc]
    rfl

/-! ### All values -/

theorem length_le_renderItems {items : List Json} (h : ∀ w ∈ items, toBytes w ≠ []) :
    items.length ≤ (ofString (renderItems items)).length := by
  induction items with
  | nil => exact Nat.zero_le _
  | cons v items ih =>
    obtain ⟨hv, hitems⟩ := List.forall_mem_cons.mp h
    have hpos := List.length_pos_of_ne_nil hv
    cases items with
    | nil => exact hpos
    | cons w items =>
      have hle := ih hitems
      rw [renderItems_cons]
      simp only [List.length_append, List.length_cons] at hle ⊢
      omega

theorem length_le_renderFields (fs : List (String × Json)) :
    fs.length ≤ (ofString (renderFields fs)).length := by
  induction fs with
  | nil => exact Nat.zero_le _
  | cons f fs ih =>
    obtain ⟨key, v⟩ := f
    cases fs with
    | nil =>
      rw [renderFields_single]
      exact Nat.succ_le_succ (Nat.zero_le _)
    | cons g fs =>
      rw [renderFields_cons]
      simp only [List.length_append, List.length_cons] at ih ⊢
      omega

theorem length_toBytes_le_of_mem {items : List Json} (h : v ∈ items) :
    (toBytes v).length ≤ (ofString (renderItems items)).length := by
  induction items with
  | nil => cases h
  | cons w items ih =>
    cases items with
    | nil =>
      obtain rfl := List.mem_singleton.mp h
      exact Nat.le_refl _
    | cons u items =>
      rw [renderItems_cons]
      simp only [List.length_append, List.length_cons]
      rcases List.mem_cons.mp h with rfl | h
      · omega
      · have hle := ih h
        omega

theorem length_toBytes_le_of_mem_fields {f : String × Json} {fs : List (String × Json)}
    (h : f ∈ fs) : (toBytes f.2).length ≤ (ofString (renderFields fs)).length := by
  induction fs with
  | nil => cases h
  | cons g fs ih =>
    obtain ⟨key, v⟩ := g
    cases fs with
    | nil =>
      obtain rfl := List.mem_singleton.mp h
      rw [renderFields_single]
      simp only [List.length_append, List.length_cons]
      omega
    | cons u fs =>
      rw [renderFields_cons]
      simp only [List.length_append, List.length_cons]
      rcases List.mem_cons.mp h with rfl | h
      · dsimp only
        omega
      · have hle := ih h
        omega

theorem takes_null : Takes (readValue fuel depth) .null := by
  intro rest _
  rw [readValue.eq_def]
  rfl

theorem takes_bool (b : Bool) : Takes (readValue fuel depth) (.bool b) := by
  intro rest _
  rw [readValue.eq_def]
  cases b <;> rfl

theorem takes_array {w : Json} {items : List Json}
    (htakes : ∀ v ∈ w :: items, Takes (readValue fuel depth) v)
    (hhead : ∀ v ∈ w :: items, ∃ b bs, toBytes v = b :: bs ∧ isSpace b = false ∧ b ≠ 0x5D)
    (hfuel : items.length < fuel) :
    Takes (readValue fuel (depth + 1)) (.array (w :: items)) := by
  intro rest _
  obtain ⟨b, bs, heq, hspace, hclose⟩ := hhead w List.mem_cons_self
  obtain ⟨tail, htail⟩ := renderItems_prefix w items
  have hread := readItems_renderItems [] rest htakes
    (fun v hv => hhead v (List.mem_cons_of_mem w hv)) hfuel
  rw [htail, heq, List.cons_append, List.cons_append] at hread
  rw [toBytes_array, htail, heq, List.cons_append, List.append_assoc, List.singleton_append,
    List.cons_append, List.cons_append, readValue.eq_def]
  dsimp only
  rw [skipSpace_cons rfl]
  dsimp only
  rw [if_neg (by decide), if_neg (by decide), if_neg (by decide), if_neg (by decide),
    if_neg (by decide), if_neg (by decide), if_pos rfl, skipSpace_cons hspace]
  split
  · next hnil => cases hnil
  · next hcons => exact absurd (List.cons.inj hcons).1 hclose
  · rw [hread, ordered, orderedItems_eq_map]
    rfl

theorem takes_fields {f : String × Json} {fs : List (String × Json)}
    (htakes : ∀ g ∈ f :: fs, Takes (readValue fuel depth) g.2) (hfuel : fs.length < fuel) :
    Takes (readValue fuel (depth + 1)) (.fields (f :: fs)) := by
  intro rest _
  obtain ⟨tail, htail⟩ := renderFields_head f fs
  have hread := readFields_renderFields [] rest htakes hfuel
  rw [htail, List.cons_append] at hread
  rw [toBytes_fields, htail, List.cons_append, List.append_assoc, List.singleton_append,
    List.cons_append, readValue.eq_def]
  dsimp only
  rw [skipSpace_cons rfl]
  dsimp only
  rw [if_neg (by decide), if_neg (by decide), if_neg (by decide), if_neg (by decide),
    if_neg (by decide), if_neg (by decide), if_neg (by decide), if_pos rfl, skipSpace_cons rfl]
  change (readFields (readValue fuel depth) fuel (0x22 :: (tail ++ 0x7D :: rest)) []).bind _ = _
  rw [hread, ordered, orderedFields_eq_map]
  rfl

theorem Plain.takes (hv : Plain depth v) (hfuel : (toBytes v).length ≤ fuel) :
    Takes (readValue fuel depth) v := by
  induction hv with
  | null => exact takes_null
  | bool b => exact takes_bool b
  | int hlow hhigh => exact takes_int hlow hhigh
  | string s => exact takes_string s
  | @array depth items h ih =>
    cases items with
    | nil =>
      intro rest _
      rw [readValue.eq_def]
      rfl
    | cons w items =>
      rw [toBytes_array, List.length_cons, List.length_append] at hfuel
      have hcount := length_le_renderItems fun v hv => (h v hv).toBytes_ne_nil
      rw [List.length_cons] at hcount
      refine takes_array (fun v hv => ih v hv ?_) (fun v hv => (h v hv).toBytes_eq_cons) (by omega)
      have hle := length_toBytes_le_of_mem hv
      omega
  | @fields depth fs h ih =>
    cases fs with
    | nil =>
      intro rest _
      rw [readValue.eq_def]
      rfl
    | cons f fs =>
      rw [toBytes_fields, List.length_cons, List.length_append] at hfuel
      have hcount := length_le_renderFields (f :: fs)
      rw [List.length_cons] at hcount
      refine takes_fields (fun g hg => ih g hg ?_) (by omega)
      have hle := length_toBytes_le_of_mem_fields hg
      omega

/-- **Whatever is printed is read back**, if the reader can take it, with the fields of its objects in
order. -/
theorem parse_toBytes (hv : Plain maxDepth v) : parse (toBytes v) = .ok v.ordered := by
  have hread := hv.takes (Nat.le_refl (toBytes v).length) [] nofun
  rw [List.append_nil] at hread
  rw [parse, readText, hread]
  rfl

end WorkflowLint.Json

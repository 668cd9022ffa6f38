import WorkflowLint.Json.Parser
import WorkflowLint.Proofs.Json.Fields
import WorkflowLint.Proofs.Number.Rounding
/-!
# What values a text can have

Whatever text is read, an integer of its value has 64 bits, with a sign or without, a float is a
rounded one, and the keys of an object ascend; so it is at every depth (`parse_sound`). Each reader
has a lemma on what it yields, in the order in which they call one another; what the reader of
values does at one depth is said once (`readValue_readAs`). An array has no more items than its text
has bytes (`length_le_of_parse`).
-/

namespace WorkflowLint.Json

/-- An integer of 64 bits, or a rounded float. -/
inductive Number.Sound : Number → Prop
  | int {n : Int} (hlow : -0x8000000000000000 ≤ n) (hhigh : n ≤ maxDigits) : Sound (.int n)
  | float {x : Binary64} (h : x.Fits) : Sound (.float x)

/-- A value as it is read from a text. -/
inductive Sound : Json → Prop
  | null : Sound .null
  | bool (b : Bool) : Sound (.bool b)
  | number {n : Number} (h : n.Sound) : Sound (.number n)
  | string (s : String) : Sound (.string s)
  | array {items : List Json} (h : ∀ v ∈ items, Sound v) : Sound (.array items)
  | fields {fs : List (String × Json)} (hkeys : Ascending fs) (h : ∀ f ∈ fs, Sound f.2) :
      Sound (.fields fs)

/-! ## Readers -/

variable {α β : Type} {P : α → Prop}

/-- What is read, if anything is, has a property. -/
def Yields (P : α → Prop) (result : Except Failure (α × List UInt8)) : Prop :=
  ∀ a rest, result = .ok (a, rest) → P a

theorem yields_ok {a : α} (h : P a) (rest : List UInt8) : Yields P (.ok (a, rest)) := by
  rintro b rest' heq
  obtain ⟨rfl, -⟩ := Prod.mk.inj (Except.ok.inj heq)
  exact h

theorem yields_failBefore {cause : SyntaxCause} {rest : List UInt8} :
    Yields P (failBefore cause rest) := nofun

theorem yields_failAt {cause : SyntaxCause} {rest : List UInt8} : Yields P (failAt cause rest) :=
  nofun

theorem yields_bind {result : Except Failure β} {next : β → Except Failure (α × List UInt8)}
    (h : ∀ b, result = .ok b → Yields P (next b)) : Yields P (result >>= next) := by
  cases result with
  | error e => nofun
  | ok b => exact h b rfl

/-! ## Numbers -/

variable {negative up : Bool} {digits value : Nat} {exponent : Int} {s rest : List UInt8}

theorem digitValue_le {b : UInt8} {d : Nat} (h : digitValue b = some d) : d ≤ 9 := by
  rw [digitValue] at h
  split at h
  · obtain rfl := Option.some.inj h
    omega
  · cases h

theorem floatOf_sound : Yields Number.Sound (floatOf negative digits exponent rest) := by
  rw [floatOf]
  split
  · next x hx => exact yields_ok (.float ((Binary64.ofDecimal?_fits hx).withSign negative)) rest
  · exact yields_failBefore

theorem readExponentDigits_sound :
    Yields Number.Sound (readExponentDigits negative digits exponent up value s) := by
  induction s generalizing value with
  | nil => exact floatOf_sound
  | cons b rest ih =>
    rw [readExponentDigits]
    split
    · exact floatOf_sound
    · split_ifs
      · exact yields_failBefore
      · exact yields_ok (.float (Binary64.zero_fits negative)) _
      · exact ih

theorem readExponent_sound : Yields Number.Sound (readExponent negative digits exponent s) := by
  rw [readExponent.eq_def]
  dsimp only
  split
  · exact yields_failBefore
  · split
    · exact readExponentDigits_sound
    · exact yields_failBefore

theorem readScale_sound : Yields Number.Sound (readScale negative digits exponent s) := by
  rw [readScale.eq_def]
  split
  · exact floatOf_sound
  · split_ifs
    · exact readExponent_sound
    · exact floatOf_sound

theorem readDecimals_sound : Yields Number.Sound (readDecimals negative digits exponent s) := by
  induction s generalizing digits exponent with
  | nil => exact readScale_sound
  | cons b rest ih =>
    rw [readDecimals]
    split
    · exact readScale_sound
    · split_ifs
      · exact readScale_sound
      · exact ih

theorem readFraction_sound : Yields Number.Sound (readFraction negative digits exponent s) := by
  rw [readFraction.eq_def]
  split
  · exact yields_failAt
  · split_ifs
    · exact yields_failAt
    · exact readDecimals_sound

theorem readLong_sound : Yields Number.Sound (readLong negative digits exponent s) := by
  induction s generalizing exponent with
  | nil => exact floatOf_sound
  | cons b rest ih =>
    rw [readLong]
    split_ifs
    · exact ih
    · exact readFraction_sound
    · exact readScale_sound

theorem wholeNumber_sound (negative : Bool) (h : digits ≤ maxDigits) :
    (wholeNumber negative digits).Sound := by
  rw [wholeNumber]
  split_ifs with hsign hfits
  · exact .int (by omega) (Int.ofNat_le.mpr h)
  · exact .int (by omega) (by rw [maxDigits]; omega)
  · refine .float (Binary64.Fits.withSign ?_ _)
    cases hx : Binary64.ofNat? digits with
    | none => exact Binary64.zero_fits false
    | some x => exact Binary64.round_fits hx

theorem readTail_sound (h : digits ≤ maxDigits) :
    Yields Number.Sound (readTail negative digits s) := by
  rw [readTail.eq_def]
  split
  · exact yields_ok (wholeNumber_sound negative h) _
  · split_ifs
    · exact readFraction_sound
    · exact readExponent_sound
    · exact yields_ok (wholeNumber_sound negative h) _

theorem readDigits_sound (h : digits ≤ maxDigits) :
    Yields Number.Sound (readDigits negative digits s) := by
  induction s generalizing digits with
  | nil => exact readTail_sound h
  | cons b rest ih =>
    rw [readDigits]
    split
    · exact readTail_sound h
    · split_ifs with hlong
      · exact readLong_sound
      · exact ih (Nat.not_lt.mp hlong)

theorem readNumber_sound : Yields Number.Sound (readNumber negative s) := by
  have hzero : 0 ≤ maxDigits := Nat.zero_le _
  rw [readNumber.eq_def]
  split
  · exact yields_failBefore
  · split
    · exact yields_failBefore
    · split
      · split_ifs
        · exact yields_failAt
        · exact readTail_sound hzero
      · exact readTail_sound hzero
    · next d _ hd =>
      have hle := digitValue_le hd
      exact readDigits_sound (by rw [maxDigits]; omega)

/-! ## Arrays and objects -/

variable {item : List UInt8 → Except Failure (Json × List UInt8)} {fuel : Nat}

theorem readItems_sound (hitem : ∀ s, Yields Sound (item s)) {acc : List Json}
    (hacc : ∀ v ∈ acc, v.Sound) :
    Yields (fun items => ∀ v ∈ items, v.Sound) (readItems item fuel s acc) := by
  induction fuel generalizing s acc with
  | zero => exact yields_failAt
  | succ fuel ih =>
    rw [readItems]
    refine yields_bind fun (v, rest) hv => ?_
    have hnext : ∀ w ∈ v :: acc, w.Sound := List.forall_mem_cons.mpr ⟨hitem s v rest hv, hacc⟩
    dsimp only
    split
    · exact yields_failAt
    · split_ifs
      · exact yields_ok (fun w hw => hnext w (List.mem_reverse.mp hw)) _
      · split
        · exact yields_failAt
        · exact yields_failAt
        · exact ih hnext
      · exact yields_failAt

theorem readFields_sound (hitem : ∀ s, Yields Sound (item s)) {acc : List (String × Json)}
    (hacc : ∀ f ∈ acc, f.2.Sound) :
    Yields (fun fs => ∀ f ∈ fs, f.2.Sound) (readFields item fuel s acc) := by
  induction fuel generalizing s acc with
  | zero => exact yields_failAt
  | succ fuel ih =>
    rw [readFields.eq_def]
    dsimp only
    split
    · refine yields_bind fun (key, rest) _ => ?_
      dsimp only
      split
      · exact yields_failAt
      · next rest' _ =>
        refine yields_bind fun (v, rest) hv => ?_
        have hnext : ∀ f ∈ (key, v) :: acc, f.2.Sound :=
          List.forall_mem_cons.mpr ⟨hitem rest' v rest hv, hacc⟩
        dsimp only
        split
        · exact yields_failAt
        · split_ifs
          · exact yields_ok (fun f hf => hnext f (List.mem_reverse.mp hf)) _
          · split
            · exact yields_failAt
            · exact yields_failAt
            · exact ih hnext
          · exact yields_failAt
      · exact yields_failAt
    · exact yields_failAt

theorem object_sound {fs : List (String × Json)} (h : ∀ f ∈ fs, f.2.Sound) : (object fs).Sound :=
  .fields (ascending_sortFields fs) fun f hf => h f (mem_sortFields hf)

/-! ## Values -/

/-- What is read as a value nesting so deep, and how the items of an array and the fields of an
object have been read. -/
inductive ReadAs (fuel depth : Nat) : Json → Prop
  | null : ReadAs fuel depth .null
  | bool (b : Bool) : ReadAs fuel depth (.bool b)
  | number {n : Number} (h : n.Sound) : ReadAs fuel depth (.number n)
  | string (s : String) : ReadAs fuel depth (.string s)
  | noItems : ReadAs fuel depth (.array [])
  | items {inner : Nat} {s rest : List UInt8} {items : List Json} (hdepth : depth = inner + 1)
      (h : readItems (readValue fuel inner) fuel s [] = .ok (items, rest)) :
      ReadAs fuel depth (.array items)
  | noFields : ReadAs fuel depth (.fields [])
  | fields {inner : Nat} {s rest : List UInt8} {fs : List (String × Json)}
      (hdepth : depth = inner + 1)
      (h : readFields (readValue fuel inner) fuel s [] = .ok (fs, rest)) :
      ReadAs fuel depth (object fs)

theorem readValue_readAs {depth : Nat} : Yields (ReadAs fuel depth) (readValue fuel depth s) := by
  rw [readValue.eq_def]
  dsimp only
  split
  · exact yields_failAt
  · split_ifs
    · exact yields_bind fun rest _ => yields_ok .null rest
    · exact yields_bind fun rest _ => yields_ok (.bool true) rest
    · exact yields_bind fun rest _ => yields_ok (.bool false) rest
    · exact yields_bind fun (n, rest) hn => yields_ok (.number (readNumber_sound n rest hn)) rest
    · exact yields_bind fun (n, rest) hn => yields_ok (.number (readNumber_sound n rest hn)) rest
    · exact yields_bind fun (text, rest) _ => yields_ok (.string text) rest
    · split
      · exact yields_failAt
      · split
        · exact yields_failAt
        · exact yields_ok .noItems _
        · exact yields_bind fun (items, rest) hitems => yields_ok (.items rfl hitems) rest
    · split
      · exact yields_failAt
      · split
        · exact yields_failAt
        · exact yields_ok .noFields _
        · exact yields_bind fun (fs, rest) hfs => yields_ok (.fields rfl hfs) rest
    · exact yields_failAt

theorem readValue_sound {depth : Nat} : Yields Sound (readValue fuel depth s) := by
  induction depth using Nat.strongRecOn generalizing s with
  | ind depth ih =>
    intro v rest hread
    cases readValue_readAs v rest hread with
    | null => exact .null
    | bool b => exact .bool b
    | number hn => exact .number hn
    | string text => exact .string text
    | noItems => exact .array (List.forall_mem_nil _)
    | @items inner _ _ _ hdepth h =>
      have hinner := fun s => @ih inner (by omega) s
      exact .array (readItems_sound hinner (List.forall_mem_nil _) _ _ h)
    | noFields => exact .fields .nil (List.forall_mem_nil _)
    | @fields inner _ _ _ hdepth h =>
      have hinner := fun s => @ih inner (by omega) s
      exact object_sound (readFields_sound hinner (List.forall_mem_nil _) _ _ h)

/-- What every value read from a text has, the value of the text has. -/
theorem of_parse {P : Json → Prop} {text : List UInt8} {v : Json}
    (hread : Yields P (readValue text.length maxDepth text)) (h : parse text = .ok v) : P v := by
  rw [parse, readText] at h
  cases hvalue : readValue text.length maxDepth text with
  | error f => rw [hvalue] at h; cases h
  | ok read =>
    obtain ⟨w, rest⟩ := read
    rw [hvalue] at h
    dsimp only [bind, Except.bind] at h
    split at h
    · obtain rfl := Except.ok.inj h
      exact hread w rest hvalue
    · cases h

theorem parse_sound {text : List UInt8} {v : Json} (h : parse text = .ok v) : v.Sound :=
  of_parse readValue_sound h

/-! ## Sizes -/

theorem readItems_length {acc : List Json} :
    Yields (fun items => items.length ≤ acc.length + fuel) (readItems item fuel s acc) := by
  induction fuel generalizing s acc with
  | zero => exact yields_failAt
  | succ fuel ih =>
    rw [readItems]
    refine yields_bind fun (v, rest) _ => ?_
    dsimp only
    split
    · exact yields_failAt
    · split_ifs
      · refine yields_ok ?_ _
        rw [List.length_reverse, List.length_cons]
        omega
      · split
        · exact yields_failAt
        · exact yields_failAt
        · intro items rest hitems
          have hle := ih items rest hitems
          rw [List.length_cons] at hle
          omega
      · exact yields_failAt

theorem readValue_length {depth : Nat} :
    Yields (fun v => ∀ items, v = .array items → items.length ≤ fuel) (readValue fuel depth s) := by
  rintro v rest hread items rfl
  cases readValue_readAs _ rest hread with
  | noItems => exact Nat.zero_le _
  | items _ h => exact Nat.le_trans (readItems_length items _ h) (Nat.zero_add fuel).le

theorem length_le_of_parse {text : List UInt8} {items : List Json}
    (h : parse text = .ok (.array items)) : items.length ≤ text.length :=
  of_parse readValue_length h items rfl

theorem SyntaxError.le_of_parse {text : List UInt8} {e : SyntaxError} (h : parse text = .error e) :
    e.line ≤ text.length + 1 ∧ e.column ≤ text.length := by
  rw [parse] at h
  cases hread : readText text with
  | ok v => rw [hread] at h; cases h
  | error f =>
    rw [hread] at h
    obtain rfl := Except.error.inj h
    have hbefore : (text.take (text.length - f.left)).length ≤ text.length := List.length_take_le' _ _
    refine ⟨Nat.succ_le_succ (Nat.le_trans List.count_le_length hbefore), ?_⟩
    refine Nat.le_trans (List.takeWhile_sublist _).length_le ?_
    rwa [List.length_reverse]

end WorkflowLint.Json

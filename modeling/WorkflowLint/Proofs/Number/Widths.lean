import WorkflowLint.Json.Printer
import WorkflowLint.Proofs.Number.Rounding
/-!
# How long the texts of numbers are

A natural number below `10 ^ k` has at most `k` digits, and a sign is one character more. The
shortest decimal of a number that fits has at most 18 digits, because its magnitude is not
underestimated (`isBelow_magnitude`), so that the text of a float has at most 25 characters
(`Json.length_floatText_le`).
-/

namespace WorkflowLint

theorem length_repr_le {n k : Nat} (hk : 0 < k) (h : n < 10 ^ k) : n.repr.length ≤ k := by
  rw [Nat.repr_eq_ofList_toDigits, String.length_ofList]
  exact (Nat.length_toDigits_le_iff (by decide) hk).mpr h

theorem length_toString_int_le {n : Int} {k : Nat} (hk : 0 < k) (h : n.natAbs < 10 ^ k) :
    (toString n).length ≤ k + 1 := by
  cases n with
  | ofNat n => exact Nat.le_succ_of_le (length_repr_le hk h)
  | negSucc n =>
    have hlength := length_repr_le hk (n := n + 1) (by simpa using h)
    change ("-" ++ (n + 1).repr).length ≤ k + 1
    rw [String.length_append]
    change 1 + (n + 1).repr.length ≤ k + 1
    omega

theorem Decimal.strip_le (d : Decimal) (n : Nat) : (d.strip n).digits ≤ d.digits ∧
    d.exponent ≤ (d.strip n).exponent ∧ (d.strip n).exponent ≤ d.exponent + n := by
  induction n generalizing d with
  | zero => exact ⟨Nat.le_refl _, Int.le_refl _, by rw [Decimal.strip]; omega⟩
  | succ n ih =>
    rw [Decimal.strip]
    split_ifs
    · obtain ⟨hdigits, hlow, hhigh⟩ := ih ⟨d.digits / 10, d.exponent + 1⟩
      dsimp only at hdigits hlow hhigh
      refine ⟨Nat.le_trans hdigits (Nat.div_le_self _ _), by omega, by omega⟩
    · exact ⟨Nat.le_refl _, Int.le_refl _, by omega⟩

/-- A decimal of at most 18 digits, with the point not far off. -/
structure Decimal.IsShort (d : Decimal) : Prop where
  digits_lt : d.digits < 10 ^ 18
  le_exponent : -400 ≤ d.exponent
  exponent_le : d.exponent ≤ 400

theorem Decimal.IsShort.strip {d : Decimal} {n : Nat} (hdigits : d.digits < 10 ^ 18)
    (hlow : -400 ≤ d.exponent) (hhigh : d.exponent + n ≤ 400) : (d.strip n).IsShort := by
  obtain ⟨hle, hleast, hmost⟩ := d.strip_le n
  exact ⟨Nat.lt_of_le_of_lt hle hdigits, by omega, by omega⟩

namespace Binary64

variable {x : Binary64} {v : Basin} {k : Int}

/-! ## The magnitude -/

/-- The number is below `10 ^ k`. -/
def Basin.IsBelow (v : Basin) (k : Int) : Prop :=
  v.mid * 10 ^ (-k).toNat < 1 * (v.den * 10 ^ k.toNat)

theorem below_iff : below v.mid v.den 1 k false = true ↔ v.IsBelow k := by
  rw [below, Basin.IsBelow]
  simp [Nat.pow_eq]

/-- Powers of two are below powers of ten: `2 ^ 93 < 10 ^ 28`. -/
theorem two_pow_le_ten_pow {a b : Nat} (h : 28 * a ≤ 93 * b) : 2 ^ a ≤ 10 ^ b := by
  have hpow : (2 ^ a) ^ 28 ≤ (10 ^ b) ^ 28 := by
    calc (2 ^ a) ^ 28 = 2 ^ (28 * a) := by rw [← Nat.pow_mul, Nat.mul_comm]
      _ ≤ 2 ^ (93 * b) := Nat.pow_le_pow_right Nat.two_pos h
      _ = (2 ^ 93) ^ b := Nat.pow_mul ..
      _ ≤ (10 ^ 28) ^ b := Nat.pow_le_pow_left (by decide) b
      _ = (10 ^ b) ^ 28 := by rw [← Nat.pow_mul, ← Nat.pow_mul, Nat.mul_comm]
  exact (Nat.pow_le_pow_iff_left (by decide)).mp hpow

/-- Powers of ten are below powers of two: `10 ^ 59 < 2 ^ 196`. -/
theorem ten_pow_le_two_pow {a b : Nat} (h : 196 * a ≤ 59 * b) : 10 ^ a ≤ 2 ^ b := by
  have hpow : (10 ^ a) ^ 59 ≤ (2 ^ b) ^ 59 := by
    calc (10 ^ a) ^ 59 = (10 ^ 59) ^ a := by rw [← Nat.pow_mul, ← Nat.pow_mul, Nat.mul_comm]
      _ ≤ (2 ^ 196) ^ a := Nat.pow_le_pow_left (by decide) a
      _ = 2 ^ (196 * a) := (Nat.pow_mul ..).symm
      _ ≤ 2 ^ (59 * b) := Nat.pow_le_pow_right Nat.two_pos h
      _ = (2 ^ b) ^ 59 := by rw [← Nat.pow_mul, Nat.mul_comm]
  exact (Nat.pow_le_pow_iff_left (by decide)).mp hpow

/-- The binary logarithm of the magnitude. -/
def Basin.log (v : Basin) : Int := (v.mid.log2 : Int) - v.den.log2

/-- The first guess of the magnitude is not more than one too small. -/
theorem isBelow_guess (hden : 0 < v.den) (hlow : -3000 ≤ v.log) (hhigh : v.log ≤ 3000) :
    v.IsBelow (v.log * 30103 / 100000 + 2) := by
  have hmid : v.mid < 2 ^ (v.mid.log2 + 1) := Nat.lt_log2_self
  have hpow : 2 ^ v.den.log2 ≤ v.den := Nat.log2_self_le (Nat.ne_of_gt hden)
  rw [Basin.log] at *
  generalize v.mid.log2 = a at *
  generalize v.den.log2 = b at *
  rw [Basin.IsBelow, Nat.one_mul]
  generalize hk : ((a : Int) - b) * 30103 / 100000 + 2 = k
  rcases Int.lt_or_le k 0 with hneg | hpos
  · have hten : 10 ^ (-k).toNat ≤ 2 ^ (b - (a + 1)) := ten_pow_le_two_pow (by omega)
    calc v.mid * 10 ^ (-k).toNat < 2 ^ (a + 1) * 10 ^ (-k).toNat :=
          Nat.mul_lt_mul_of_pos_right hmid (Nat.pow_pos (by decide))
      _ ≤ 2 ^ (a + 1) * 2 ^ (b - (a + 1)) := Nat.mul_le_mul_left _ hten
      _ = 2 ^ b := by rw [← Nat.pow_add, show a + 1 + (b - (a + 1)) = b by omega]
      _ ≤ v.den := hpow
      _ ≤ v.den * 10 ^ k.toNat := Nat.le_mul_of_pos_right _ (Nat.pow_pos (by decide))
  · have hten : 2 ^ (a + 1 - b) ≤ 10 ^ k.toNat := two_pow_le_ten_pow (by omega)
    rw [show (-k).toNat = 0 by omega, Nat.pow_zero, Nat.mul_one]
    calc v.mid < 2 ^ (a + 1) := hmid
      _ ≤ 2 ^ (b + (a + 1 - b)) := Nat.pow_le_pow_right Nat.two_pos (by omega)
      _ = 2 ^ b * 2 ^ (a + 1 - b) := Nat.pow_add ..
      _ ≤ v.den * 10 ^ k.toNat := Nat.mul_le_mul hpow hten

theorem isBelow_adjusted {g : Int} (h : v.IsBelow (g + 2)) :
    let lower := if below v.mid v.den 1 g false then g - 1 else g
    let p := if below v.mid v.den 1 (lower + 1) false then lower else lower + 1
    v.IsBelow (p + 1) ∧ g - 1 ≤ p ∧ p ≤ g + 1 := by
  dsimp only
  by_cases hlower : v.IsBelow g
  · rw [if_pos (below_iff.mpr hlower), if_pos (below_iff.mpr (by rwa [Int.sub_add_cancel]))]
    exact ⟨by rwa [Int.sub_add_cancel], by omega, by omega⟩
  · rw [if_neg (below_iff.not.mpr hlower)]
    by_cases hnext : v.IsBelow (g + 1)
    · rw [if_pos (below_iff.mpr hnext)]
      exact ⟨hnext, by omega, by omega⟩
    · rw [if_neg (below_iff.not.mpr hnext)]
      exact ⟨by rwa [Int.add_assoc], by omega, by omega⟩

theorem isBelow_magnitude (hden : 0 < v.den) (hlow : -3000 ≤ v.log) (hhigh : v.log ≤ 3000) :
    v.IsBelow (v.magnitude + 1) ∧ v.log * 30103 / 100000 - 1 ≤ v.magnitude ∧
      v.magnitude ≤ v.log * 30103 / 100000 + 1 :=
  isBelow_adjusted (isBelow_guess hden hlow hhigh)

/-! ## The shortest decimal -/

theorem Basin.IsBelow.scaled {n : Nat} (h : v.IsBelow (k + n)) :
    v.mid * 10 ^ (-k).toNat < 10 ^ n * (v.den * 10 ^ k.toNat) := by
  induction n generalizing k with
  | zero => rwa [Basin.IsBelow, Nat.cast_zero, Int.add_zero] at h
  | succ n ih =>
    have hnext := lt_mul_pow_pred (by decide)
      (ih (k := k + 1) (by rwa [Int.add_right_comm, Int.add_assoc]))
    rwa [Int.add_sub_cancel, ← Nat.pow_succ'] at hnext

theorem onGrid_eq_some {p : Int} {n : Nat} {d : Decimal} (hden : 0 < v.den)
    (hbelow : v.IsBelow (p + 1)) (h : v.onGrid p n = some d) :
    d.digits ≤ 10 ^ n ∧ d.exponent = p - n + 1 := by
  have hscaled := Basin.IsBelow.scaled (v := v) (k := p - n + 1) (n := n)
    (by rwa [show p - n + 1 + (n : Int) = p + 1 by omega])
  have hquotient := (Nat.div_lt_iff_lt_mul
    (Nat.mul_pos hden (Nat.pow_pos (n := (p - n + 1).toNat) (show 0 < 10 by decide)))).mpr hscaled
  rw [Basin.onGrid] at h
  simp only [Nat.pow_eq] at h
  generalize v.mid * 10 ^ (-(p - n + 1)).toNat / (v.den * 10 ^ (p - n + 1).toNat) = q at *
  have hfits {e : Int} (he : e = p - n + 1) : ∀ c : Decimal, c = ⟨q, e⟩ ∨ c = ⟨q + 1, e⟩ →
      c.digits ≤ 10 ^ n ∧ c.exponent = p - n + 1 := by
    rintro c (rfl | rfl)
    · exact ⟨Nat.le_of_lt hquotient, he⟩
    · exact ⟨hquotient, he⟩
  split at h
  · cases h
  · exact hfits rfl d (.inl (Option.some.inj h).symm)
  · exact hfits rfl d (.inr (Option.some.inj h).symm)
  · split at h
    · exact hfits rfl d (.inl (Option.some.inj h).symm)
    · exact hfits rfl d (.inr (Option.some.inj h).symm)

theorem basin_log (hx : x.Fits) : 0 < x.basin.den ∧ -1100 ≤ x.basin.log ∧ x.basin.log ≤ 1100 := by
  obtain ⟨hsignificand, hlow, hhigh⟩ := hx
  rw [minExponent] at hlow
  rw [maxExponent] at hhigh
  have hden : x.basin.den = 2 ^ (2 + (-x.exponent).toNat) := by
    rw [Nat.pow_add]
    exact Nat.shiftLeft_eq ..
  have hlogden : x.basin.den.log2 = 2 + (-x.exponent).toNat := by
    rw [hden, Nat.log2_two_pow]
  have hmid : x.basin.mid < 2 ^ (55 + x.exponent.toNat) := by
    have hup : x.basin.mid = 4 * x.significand * 2 ^ x.exponent.toNat := by
      change 4 * x.significand * (1 <<< x.exponent.toNat) = _
      rw [Nat.one_shiftLeft]
    rw [hup, Nat.pow_add]
    exact Nat.mul_lt_mul_of_pos_right (by omega) (Nat.two_pow_pos _)
  have hlogmid : x.basin.mid.log2 ≤ 55 + x.exponent.toNat := by
    by_cases hzero : x.basin.mid = 0
    · rw [hzero]
      exact Nat.zero_le _
    · exact Nat.le_of_lt ((Nat.log2_lt hzero).mpr hmid)
  rw [Basin.log, hlogden]
  refine ⟨by rw [hden]; exact Nat.two_pow_pos _, by omega, by omega⟩

theorem shortest_isShort (hx : x.Fits) : x.shortest.IsShort := by
  rw [shortest]
  split_ifs
  · exact ⟨by decide, by decide, by decide⟩
  · obtain ⟨hden, hlow, hhigh⟩ := basin_log hx
    obtain ⟨hbelow, hleast, hmost⟩ := isBelow_magnitude hden (by omega) (by omega)
    dsimp only
    cases hfind : (List.range 17).findSome? fun n =>
        x.basin.onGrid x.basin.magnitude (n + 1) with
    | none => exact .strip (by decide) (by decide) (by decide)
    | some d =>
      obtain ⟨n, hn, hgrid⟩ := List.exists_of_findSome?_eq_some hfind
      obtain ⟨hdigits, hexponent⟩ := onGrid_eq_some hden hbelow hgrid
      have hn : n < 17 := List.mem_range.mp hn
      have hpow : 10 ^ (n + 1) ≤ 10 ^ 17 := Nat.pow_le_pow_right (by decide) hn
      refine .strip ?_ ?_ ?_
      · exact Nat.lt_of_le_of_lt (Nat.le_trans hdigits hpow) (by decide)
      · rw [Option.getD_some]
        omega
      · rw [Option.getD_some]
        omega

/-! ## The text of a decimal -/

theorem length_write_le {f : DecimalStyle} {d : Decimal} (hpoint : f.maxPoint ≤ 16)
    (hzeros : f.maxZeros ≤ 5) (h : d.IsShort) : (f.write d).length ≤ 24 := by
  obtain ⟨hdigits, hlow, hhigh⟩ := h
  have hlength := length_repr_le (by decide) hdigits
  rw [DecimalStyle.write]
  dsimp only
  have hlist : d.digits.repr.toList.length = d.digits.repr.length := rfl
  by_cases hzero : d.digits = 0
  · rw [if_pos hzero]
    decide
  rw [if_neg hzero]
  by_cases hnear : 0 < (d.digits.repr.length : Int) + d.exponent ∧
      (d.digits.repr.length : Int) + d.exponent ≤ f.maxPoint
  · rw [if_pos hnear]
    split
    · simp only [String.length_append, String.length_ofList, List.length_replicate]
      change _ + _ + 2 ≤ 24
      omega
    · simp only [String.length_append, String.length_ofList, List.length_take, List.length_drop,
        hlist]
      change _ + 1 + _ ≤ 24
      omega
  rw [if_neg hnear]
  by_cases hsmall : -f.maxZeros < (d.digits.repr.length : Int) + d.exponent ∧
      (d.digits.repr.length : Int) + d.exponent ≤ 0
  · rw [if_pos hsmall]
    simp only [String.length_append, String.length_ofList, List.length_replicate]
    change 2 + _ + _ ≤ 24
    omega
  · rw [if_neg hsmall]
    have hexponent := length_repr_le (k := 3) (by decide)
      (show ((d.digits.repr.length : Int) + d.exponent - 1).natAbs < 10 ^ 3 by omega)
    have hsign : (if 0 ≤ (d.digits.repr.length : Int) + d.exponent - 1 then "+" else "-").length =
        1 := by
      split <;> rfl
    have hrest : (if d.digits.repr.toList.length ≤ 1 then "" else
        "." ++ String.ofList (d.digits.repr.toList.drop 1)).length ≤ 18 := by
      split
      · exact Nat.zero_le _
      · simp only [String.length_append, String.length_ofList, List.length_drop, hlist]
        change 1 + _ ≤ 18
        omega
    simp only [String.length_append, String.length_ofList, List.length_take, hsign]
    change min 1 _ + _ + 1 + 1 + _ ≤ 24
    omega

end Binary64

namespace Json

theorem length_floatText_le {x : Binary64} (hx : x.Fits) : (floatText x).length ≤ 25 := by
  have hwrite := Binary64.length_write_le (f := floatStyle) (by decide) (by decide)
    (Binary64.shortest_isShort hx)
  rw [floatText, String.length_append]
  split
  · change 1 + _ ≤ 25
    omega
  · change 0 + _ ≤ 25
    omega

end Json

end WorkflowLint

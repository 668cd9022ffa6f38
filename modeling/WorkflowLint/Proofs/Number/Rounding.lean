import WorkflowLint.Number.Binary64
import Mathlib.Tactic.Ring
/-!
# Rounded numbers fit

A number that rounding yields has a significand of 53 bits and an exponent in range (`round_fits`):
in the binade chosen for a ratio its quotient is below `2 ^ 53`. What is read from a decimal is
rounded, so it fits as well.
-/

namespace WorkflowLint.Binary64

/-- The significand and the exponent are those of a binary64 number. -/
structure Fits (x : Binary64) : Prop where
  significand_lt : x.significand < 2 ^ 53
  le_exponent : minExponent ≤ x.exponent
  exponent_le : x.exponent ≤ maxExponent

variable {num den : Nat} {x y : Binary64}

theorem zero_fits (negative : Bool) : (zero negative).Fits :=
  ⟨Nat.two_pow_pos 53, Int.le_refl _, show minExponent ≤ maxExponent by decide⟩

theorem Fits.withSign (h : x.Fits) (negative : Bool) : ({ x with negative } : Binary64).Fits :=
  ⟨h.significand_lt, h.le_exponent, h.exponent_le⟩

theorem nearest_le (num den : Nat) : nearest num den ≤ num / den + 1 := by
  have hodd := Nat.mod_lt (num / den) Nat.two_pos
  rw [nearest]
  split_ifs <;> omega

/-! ## The quotient in its binade -/

theorem scale_div_lt_iff (hden : 0 < den) (e : Int) (c : Nat) :
    (scale num den e).1 / (scale num den e).2 < c ↔
      num * 2 ^ (-e).toNat < c * (den * 2 ^ e.toNat) := by
  rw [scale, Nat.shiftLeft_eq, Nat.shiftLeft_eq,
    Nat.div_lt_iff_lt_mul (Nat.mul_pos hden (Nat.two_pow_pos _))]

theorem scale_div_lt_of_le (hden : 0 < den) {e : Int}
    (he : (num.log2 : Int) - den.log2 - 52 ≤ e) :
    (scale num den e).1 / (scale num den e).2 < 2 ^ 53 := by
  rw [scale_div_lt_iff hden]
  have hnum : num < 2 ^ (num.log2 + 1) := Nat.lt_log2_self
  have hlow : 2 ^ den.log2 ≤ den := Nat.log2_self_le (Nat.ne_of_gt hden)
  calc num * 2 ^ (-e).toNat
      < 2 ^ (num.log2 + 1) * 2 ^ (-e).toNat :=
        Nat.mul_lt_mul_of_pos_right hnum (Nat.two_pow_pos _)
    _ = 2 ^ (num.log2 + 1 + (-e).toNat) := (Nat.pow_add ..).symm
    _ ≤ 2 ^ (53 + (den.log2 + e.toNat)) := Nat.pow_le_pow_right Nat.two_pos (by omega)
    _ = 2 ^ 53 * (2 ^ den.log2 * 2 ^ e.toNat) := by rw [Nat.pow_add, Nat.pow_add]
    _ ≤ 2 ^ 53 * (den * 2 ^ e.toNat) := Nat.mul_le_mul_left _ (Nat.mul_le_mul_right _ hlow)

theorem lt_mul_pow_pred {b x y c : Nat} {e : Int} (hb : 0 < b)
    (h : x * b ^ (-e).toNat < c * (y * b ^ e.toNat)) :
    x * b ^ (-(e - 1)).toNat < b * c * (y * b ^ (e - 1).toNat) := by
  rcases Int.lt_or_le 0 e with hpos | hneg
  · have hup : (-(e - 1)).toNat = 0 := by omega
    have hzero : (-e).toNat = 0 := by omega
    have hdown : e.toNat = (e - 1).toNat + 1 := by omega
    rw [hzero, hdown, Nat.pow_succ] at h
    rw [hup]
    calc x * b ^ 0 < c * (y * (b ^ (e - 1).toNat * b)) := h
      _ = b * c * (y * b ^ (e - 1).toNat) := by ring
  · have hup : (-(e - 1)).toNat = (-e).toNat + 1 := by omega
    have hzero : e.toNat = 0 := by omega
    have hdown : (e - 1).toNat = 0 := by omega
    rw [hzero] at h
    rw [hup, hdown, Nat.pow_succ]
    calc x * (b ^ (-e).toNat * b) = b * (x * b ^ (-e).toNat) := by ring
      _ < b * (c * (y * b ^ 0)) := Nat.mul_lt_mul_of_pos_left h hb
      _ = b * c * (y * b ^ 0) := by ring

/-- One exponent lower the quotient at most doubles. -/
theorem scale_div_lt_pred (hden : 0 < den) {e : Int} {c : Nat}
    (h : (scale num den e).1 / (scale num den e).2 < c) :
    (scale num den (e - 1)).1 / (scale num den (e - 1)).2 < 2 * c := by
  rw [scale_div_lt_iff hden] at h ⊢
  exact lt_mul_pow_pred Nat.two_pos h

theorem scale_binade_lt (num den : Nat) :
    (scale num den (binade num den)).1 / (scale num den (binade num den)).2 < 2 ^ 53 := by
  rcases Nat.eq_zero_or_pos den with rfl | hden
  · rw [scale, Nat.zero_shiftLeft, Nat.div_zero]
    decide
  · rw [binade]
    dsimp only
    split
    · next hsmall =>
      rcases lt_or_ge minExponent ((num.log2 : Int) - den.log2 - 52 - 1) with hlow | hlow
      · rw [Int.max_eq_right (Int.le_of_lt hlow)]
        exact scale_div_lt_pred hden hsmall
      · rcases hlow.eq_or_lt with heq | hlt
        · rw [← heq, Int.max_self]
          exact scale_div_lt_pred hden hsmall
        · rw [Int.max_eq_left hlow]
          exact scale_div_lt_of_le hden (by omega)
    · exact scale_div_lt_of_le hden (Int.le_max_right _ _)

theorem minExponent_le_binade (num den : Nat) : minExponent ≤ binade num den := by
  rw [binade]
  exact Int.le_max_left _ _

/-- Whatever ratio is rounded, the number fits. -/
theorem round_fits (h : round num den = some x) : x.Fits := by
  have hquotient := scale_binade_lt num den
  have hnearest := nearest_le (scale num den (binade num den)).1 (scale num den (binade num den)).2
  have hexponent := minExponent_le_binade num den
  have hleast : 2 * leastFull = 2 ^ 53 := by decide
  rw [round] at h
  split at h
  · obtain rfl := Option.some.inj h
    exact zero_fits false
  · dsimp only at h
    generalize nearest (scale num den (binade num den)).1 (scale num den (binade num den)).2 = q
      at h hnearest
    -- a quotient rounded up to the next power of two goes one exponent up
    split at h
    · next hfull =>
      dsimp only at h
      split at h
      · cases h
      · obtain rfl := Option.some.inj h
        exact ⟨show leastFull < 2 ^ 53 by decide, by dsimp only; omega, by dsimp only; omega⟩
    · next hfull =>
      dsimp only at h
      split at h
      · cases h
      · obtain rfl := Option.some.inj h
        exact ⟨by dsimp only; omega, hexponent, by dsimp only; omega⟩

/-! ## Numbers read from decimals -/

theorem scaleTen_fits {exponent : Int} {steps : Nat} (hx : x.Fits)
    (h : scaleTen x exponent steps = some y) : y.Fits := by
  induction steps generalizing x exponent with
  | zero =>
    obtain rfl := Option.some.inj h
    exact zero_fits false
  | succ steps ih =>
    rw [scaleTen] at h
    split_ifs at h
    · obtain rfl := Option.some.inj h
      exact hx
    · obtain ⟨p, -, h⟩ := Option.bind_eq_some_iff.mp h
      exact round_fits h
    · obtain ⟨p, -, h⟩ := Option.bind_eq_some_iff.mp h
      exact round_fits h
    · obtain ⟨p, -, h⟩ := Option.bind_eq_some_iff.mp h
      obtain ⟨z, hz, h⟩ := Option.bind_eq_some_iff.mp h
      exact ih (round_fits hz) h

theorem ofDecimal?_fits {digits : Nat} {exponent : Int}
    (h : ofDecimal? digits exponent = some x) : x.Fits := by
  obtain ⟨y, hy, h⟩ := Option.bind_eq_some_iff.mp h
  exact scaleTen_fits (round_fits hy) h

end WorkflowLint.Binary64

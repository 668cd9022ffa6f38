/-!
# Binary64 numbers

A finite binary64 number is a sign and `significand · 2 ^ exponent`. `Binary64.round` takes a
ratio of naturals to the nearest such number, a half to the even neighbour, and has no answer past
the greatest one. Arithmetic is exact arithmetic followed by one rounding.
-/

namespace WorkflowLint

/-- A finite binary64 number. The numbers that occur have a significand below `2 ^ 53`, and one of
at least `2 ^ 52` unless the exponent is the least one. -/
structure Binary64 where
  /-- The sign, also of zero. -/
  negative : Bool
  /-- The integral significand. -/
  significand : Nat
  /-- The exponent of two that goes with it. -/
  exponent : Int
  deriving DecidableEq, Inhabited

namespace Binary64

def minExponent : Int := -1074

def maxExponent : Int := 971

/-- The least significand of a number whose exponent is not the least one: `2 ^ 52`. -/
def leastFull : Nat := 0x10000000000000

def zero (negative : Bool) : Binary64 := ⟨negative, 0, minExponent⟩

def neg (x : Binary64) : Binary64 := { x with negative := !x.negative }

def ratio (x : Binary64) : Nat × Nat :=
  (x.significand <<< x.exponent.toNat, 1 <<< (-x.exponent).toNat)

/-- `num / den` divided by `2 ^ e`, as a ratio. -/
def scale (num den : Nat) (e : Int) : Nat × Nat :=
  (num <<< (-e).toNat, den <<< e.toNat)

/-- The quotient to the nearest natural, a half to the even one. -/
def nearest (num den : Nat) : Nat :=
  let q := num / den
  let r := num % den
  if 2 * r < den then q
  else if 2 * r = den then q + q % 2
  else q + 1

/-- The exponent of the binade of `num / den`, not below the least one. -/
def binade (num den : Nat) : Int :=
  let guess : Int := (num.log2 : Int) - (den.log2 : Int) - 52
  let (n, d) := scale num den guess
  max minExponent (if n / d < leastFull then guess - 1 else guess)

/-- The number nearest to `num / den`; none past the greatest one. -/
def round (num den : Nat) : Option Binary64 :=
  if num = 0 then some (zero false)
  else
    let e := binade num den
    let (n, d) := scale num den e
    let q := nearest n d
    let (q, e) := if q = 2 * leastFull then (leastFull, e + 1) else (q, e)
    if maxExponent < e then none else some ⟨false, q, e⟩

def ofNat? (n : Nat) : Option Binary64 := round n 1

def mul? (x y : Binary64) : Option Binary64 :=
  let (a, b) := x.ratio
  let (c, d) := y.ratio
  round (a * c) (b * d)

def div? (x y : Binary64) : Option Binary64 :=
  let (a, b) := x.ratio
  let (c, d) := y.ratio
  round (a * d) (b * c)

/-- The greatest power of ten a decimal is scaled by in one step. -/
def maxScale : Nat := 308

/-- `x · 10 ^ exponent`. A scale past `maxScale` is too large upward, and is taken in steps
downward; zero stays zero. -/
def scaleTen (x : Binary64) (exponent : Int) : Nat → Option Binary64
  | 0 => some (zero false)
  | steps + 1 =>
    if x.significand = 0 then some x
    else if exponent.natAbs ≤ maxScale then do
      let p ← ofNat? (Nat.pow 10 exponent.natAbs)
      if 0 ≤ exponent then x.mul? p else x.div? p
    else if 0 ≤ exponent then none
    else do
      let p ← ofNat? (Nat.pow 10 maxScale)
      let y ← x.div? p
      scaleTen y (exponent + maxScale) steps

/-- The number read from the decimal `digits · 10 ^ exponent`: the digits and the power of ten are
rounded each, then their product or quotient. Three steps take every 64-bit number of digits to
zero. -/
def ofDecimal? (digits : Nat) (exponent : Int) : Option Binary64 := do
  scaleTen (← ofNat? digits) exponent 3

end Binary64

end WorkflowLint

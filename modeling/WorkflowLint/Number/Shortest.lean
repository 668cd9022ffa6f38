import WorkflowLint.Number.Binary64
/-!
# Shortest decimals

The decimal of a binary64 number has the fewest digits that read back as that number. On the grid
of `n` digits only the two neighbours of the number can read back first, so the grids of
1, 2, … 17 digits are tried with both; of two hits the nearer one wins, of equally near ones the
even one. All arithmetic is on ratios of naturals.
-/

namespace WorkflowLint

/-- `digits · 10 ^ exponent`. -/
structure Decimal where
  digits : Nat
  exponent : Int
  deriving DecidableEq, Inhabited

/-- The same value without trailing zeros; at most `n` of them are dropped. -/
def Decimal.strip (d : Decimal) : Nat → Decimal
  | 0 => d
  | n + 1 => if d.digits % 10 = 0 then Decimal.strip ⟨d.digits / 10, d.exponent + 1⟩ n else d

namespace Binary64

/-- The reals that round to a positive number: those from `low / den` to `high / den`, ends
included iff `closed`. -/
structure Basin where
  low : Nat
  mid : Nat
  high : Nat
  den : Nat
  closed : Bool

/-- The basin of a positive number. Below the least significand of a binade the neighbour is only
half as far. -/
def basin (x : Binary64) : Basin :=
  let up := 1 <<< x.exponent.toNat
  let below := if x.significand = Binary64.leastFull ∧ minExponent < x.exponent then 1 else 2
  { low := (4 * x.significand - below) * up
    mid := 4 * x.significand * up
    high := (4 * x.significand + 2) * up
    den := 4 <<< (-x.exponent).toNat
    closed := x.significand % 2 == 0 }

/-- `a / b < c · 10 ^ k`, and likewise with `≤`. -/
def below (a b c : Nat) (k : Int) (orEqual : Bool) : Bool :=
  let left := a * Nat.pow 10 (-k).toNat
  let right := c * b * Nat.pow 10 k.toNat
  if orEqual then left ≤ right else left < right

/-- Whether `d · 10 ^ k` lies in the basin. -/
def Basin.holds (v : Basin) (d : Nat) (k : Int) : Bool :=
  below v.low v.den d k v.closed &&
    (if v.closed then !below v.high v.den d k false else !below v.high v.den d k true)

/-- The exponent `p` with `10 ^ p ≤ mid / den < 10 ^ (p + 1)`. -/
def Basin.magnitude (v : Basin) : Int :=
  let guess : Int := ((v.mid.log2 : Int) - (v.den.log2 : Int)) * 30103 / 100000
  let guess := if below v.mid v.den 1 guess false then guess - 1 else guess
  if below v.mid v.den 1 (guess + 1) false then guess else guess + 1

/-- The decimal of at most `n` digits that reads back, if there is one. -/
def Basin.onGrid (v : Basin) (magnitude : Int) (n : Nat) : Option Decimal :=
  let k := magnitude - n + 1
  let num := v.mid * Nat.pow 10 (-k).toNat
  let den := v.den * Nat.pow 10 k.toNat
  let d := num / den
  match v.holds d k, v.holds (d + 1) k with
  | false, false => none
  | true, false => some ⟨d, k⟩
  | false, true => some ⟨d + 1, k⟩
  | true, true =>
    let r := num % den
    if 2 * r < den ∨ (2 * r = den ∧ d % 2 = 0) then some ⟨d, k⟩ else some ⟨d + 1, k⟩

/-- The shortest decimal of the magnitude. -/
def shortest (x : Binary64) : Decimal :=
  if x.significand = 0 then ⟨0, 0⟩
  else
    let v := x.basin
    let p := v.magnitude
    (((List.range 17).findSome? fun n => v.onGrid p (n + 1)).getD ⟨0, 0⟩).strip 17

/-- How a shortest decimal is written. -/
structure DecimalStyle where
  /-- The point may stand at most this many places after the first digit. -/
  maxPoint : Int
  /-- The point may stand at most this many places before the first digit. -/
  maxZeros : Int

/-- The text of a magnitude: positional while the point stands near the digits, and else one digit,
the point, the rest and a signed exponent. A positional number has a digit after the point. -/
def DecimalStyle.write (f : DecimalStyle) (d : Decimal) : String :=
  let digits := d.digits.repr
  let n : Int := digits.length
  let point := n + d.exponent
  if d.digits = 0 then "0.0"
  else if 0 < point ∧ point ≤ f.maxPoint then
    if 0 ≤ d.exponent then digits ++ String.ofList (List.replicate d.exponent.toNat '0') ++ ".0"
    else
      let cs := digits.toList
      String.ofList (cs.take point.toNat) ++ "." ++ String.ofList (cs.drop point.toNat)
  else if -f.maxZeros < point ∧ point ≤ 0 then
    "0." ++ String.ofList (List.replicate (-point).toNat '0') ++ digits
  else
    let cs := digits.toList
    let rest := if cs.length ≤ 1 then "" else "." ++ String.ofList (cs.drop 1)
    let exponent := point - 1
    let sign := if 0 ≤ exponent then "+" else "-"
    String.ofList (cs.take 1) ++ rest ++ "e" ++ sign ++ exponent.natAbs.repr

end Binary64

end WorkflowLint

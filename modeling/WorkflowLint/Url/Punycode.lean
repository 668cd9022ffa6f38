/-!
# Punycode

The ASCII form of a label of a domain: its ASCII characters, a hyphen, and the places and code
points of the others in increasing order, as numbers of variable length in base 36.
-/

namespace WorkflowLint.Url.Punycode

def digit (n : Nat) : Char :=
  if n < 26 then Char.ofNat (97 + n) else Char.ofNat (22 + n)

/-- The bias after a number, which the threshold of each digit depends on. -/
def adapt (delta points : Nat) (first : Bool) : Nat :=
  let delta := if first then delta / 700 else delta / 2
  let delta := delta + delta / points
  let rec go : Nat → Nat → Nat → Nat
    | 0, delta, k => k + 36 * delta / (delta + 38)
    | fuel + 1, delta, k =>
      if 455 < delta then go fuel (delta / 35) (k + 36) else k + 36 * delta / (delta + 38)
  go 64 delta 0

def threshold (k bias : Nat) : Nat :=
  if k ≤ bias then 1 else if bias + 26 ≤ k then 26 else k - bias

/-- A number of variable length. -/
def number (bias : Nat) : Nat → Nat → Nat → List Char
  | 0, q, _ => [digit q]
  | fuel + 1, q, k =>
    let t := threshold k bias
    if q < t then [digit q]
    else digit (t + (q - t) % (36 - t)) :: number bias fuel ((q - t) / (36 - t)) (k + 36)

/-- The state between two characters. -/
structure State where
  delta : Nat
  bias : Nat
  handled : Nat
  first : Bool
  out : List Char

/-- Pass one character of the label while the code point `n` is written. -/
def pass (n : Nat) (s : State) (c : Char) : State :=
  if c.toNat < n then { s with delta := s.delta + 1 }
  else if c.toNat = n then
    { delta := 0
      bias := adapt s.delta (s.handled + 1) s.first
      handled := s.handled + 1
      first := false
      out := s.out ++ number s.bias 32 s.delta 36 }
  else s

/-- Write the code points from `n` on, least first. -/
def rounds (label : List Char) : Nat → Nat → State → State
  | 0, _, s => s
  | fuel + 1, n, s =>
    match (label.map Char.toNat).filter (n ≤ ·) with
    | [] => s
    | p :: ps =>
      let m := ps.foldl min p
      let s := { s with delta := s.delta + (m - n) * (s.handled + 1) }
      let s := label.foldl (pass m) s
      rounds label fuel (m + 1) { s with delta := s.delta + 1 }

/-- The ASCII form of a label. -/
def encode (label : List Char) : List Char :=
  let basic := label.filter (·.toNat < 0x80)
  let start := if basic.isEmpty then [] else basic ++ ['-']
  (rounds label label.length 0x80 ⟨0, 72, basic.length, true, start⟩).out

end WorkflowLint.Url.Punycode

/-!
# UTF-8

Bytes are read one at a time. A reader between characters is at rest, inside a character it holds
the bits read so far and the range the next byte must lie in, so that overlong forms, surrogates
and values past U+10FFFF are refused at the first byte that leaves them no continuation. A byte
that cannot continue a character ends it as malformed and is read again from rest.

`decode?` is strict and says where the first malformed sequence begins and how long it is,
`decodeLossy` puts one replacement character for each of them.
-/

namespace WorkflowLint.Text.Utf8

def encodeChar (c : Char) : List UInt8 :=
  let n := c.toNat
  if n < 0x80 then
    [n.toUInt8]
  else if n < 0x800 then
    [(0xC0 + n / 0x40).toUInt8, (0x80 + n % 0x40).toUInt8]
  else if n < 0x10000 then
    [(0xE0 + n / 0x1000).toUInt8, (0x80 + n / 0x40 % 0x40).toUInt8, (0x80 + n % 0x40).toUInt8]
  else
    [(0xF0 + n / 0x40000).toUInt8, (0x80 + n / 0x1000 % 0x40).toUInt8,
      (0x80 + n / 0x40 % 0x40).toUInt8, (0x80 + n % 0x40).toUInt8]

def encode (cs : List Char) : List UInt8 :=
  cs.flatMap encodeChar

def ofString (s : String) : List UInt8 :=
  encode s.toList

/-- A character begun but not complete. -/
structure Pending where
  /-- The bits read so far. -/
  bits : Nat
  /-- The number of bytes read. -/
  read : Nat
  /-- The number of bytes missing. -/
  missing : Nat
  /-- The least value of the next byte. -/
  low : UInt8
  /-- The greatest value of the next byte. -/
  high : UInt8

/-- What reading bytes yields: characters, and runs of bytes that are none. -/
inductive Piece where
  | char (c : Char)
  | malformed (width : Nat)
  | cut (width : Nat)

/-- The pieces read so far, last first, and the character under way. -/
structure Reader where
  pieces : List Piece := []
  pending : Option Pending := none

def Reader.begin (r : Reader) (b : UInt8) : Reader :=
  let n := b.toNat
  let wait (bits missing : Nat) (low high : UInt8) : Reader :=
    { r with pending := some ⟨bits, 1, missing, low, high⟩ }
  if n < 0x80 then { pieces := .char (Char.ofNat n) :: r.pieces }
  else if 0xC2 ≤ n ∧ n ≤ 0xDF then wait (n - 0xC0) 1 0x80 0xBF
  else if n = 0xE0 then wait 0 2 0xA0 0xBF
  else if n = 0xED then wait 0xD 2 0x80 0x9F
  else if 0xE1 ≤ n ∧ n ≤ 0xEF then wait (n - 0xE0) 2 0x80 0xBF
  else if n = 0xF0 then wait 0 3 0x90 0xBF
  else if 0xF1 ≤ n ∧ n ≤ 0xF3 then wait (n - 0xF0) 3 0x80 0xBF
  else if n = 0xF4 then wait 4 3 0x80 0x8F
  else { pieces := .malformed 1 :: r.pieces }

def Reader.push (r : Reader) (b : UInt8) : Reader :=
  match r.pending with
  | none => r.begin b
  | some p =>
    if p.low ≤ b ∧ b ≤ p.high then
      let bits := p.bits * 0x40 + (b.toNat - 0x80)
      if p.missing = 1 then { pieces := .char (Char.ofNat bits) :: r.pieces }
      else { r with pending := some ⟨bits, p.read + 1, p.missing - 1, 0x80, 0xBF⟩ }
    else Reader.begin { pieces := .malformed p.read :: r.pieces } b

/-- The pieces in order; a character under way is cut off. -/
def Reader.finish (r : Reader) : List Piece :=
  match r.pending with
  | none => r.pieces.reverse
  | some p => (.cut p.read :: r.pieces).reverse

def pieces (bs : List UInt8) : List Piece :=
  (bs.foldl Reader.push {}).finish

/-- The first malformed sequence of a byte string. -/
structure Malformed where
  /-- The number of well-formed bytes before it. -/
  start : Nat
  /-- Its length; none when the bytes end inside a character. -/
  width : Option Nat
  deriving DecidableEq

/-- The text of strictly well-formed pieces. -/
def joinStrict : List Piece → Nat → List Char → Except Malformed (List Char)
  | [], _, acc => .ok acc.reverse
  | .char c :: ps, at_, acc => joinStrict ps (at_ + (encodeChar c).length) (c :: acc)
  | .malformed w :: _, at_, _ => .error ⟨at_, some w⟩
  | .cut _ :: _, at_, _ => .error ⟨at_, none⟩

def decode? (bs : List UInt8) : Except Malformed (List Char) :=
  joinStrict (pieces bs) 0 []

/-- The text of the bytes, with U+FFFD for each malformed sequence. -/
def decodeLossy (bs : List UInt8) : List Char :=
  (pieces bs).map fun
    | .char c => c
    | _ => Char.ofNat 0xFFFD

def toString? (bs : List UInt8) : Except Malformed String :=
  (decode? bs).map String.ofList

/-- The string of the bytes, with U+FFFD for each malformed sequence. -/
def toStringLossy (bs : List UInt8) : String :=
  String.ofList (decodeLossy bs)

end WorkflowLint.Text.Utf8

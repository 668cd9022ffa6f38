import WorkflowLint.Json.Parser
/-!
# Percent encoding

A byte that may not stand in a part of a URL is written as a percent sign and two hexadecimal
digits. Which ASCII bytes may stand depends on the part; others never may. Decoding takes every
well-formed triple and leaves a percent sign that begins none.
-/

namespace WorkflowLint.Url

/-- The ASCII bytes that are encoded in some part of a URL, besides the control characters. -/
abbrev EncodeSet := List Char

/-- What is encoded in a host or an opaque path. -/
def controlSet : EncodeSet := []

def fragmentSet : EncodeSet := [' ', '"', '<', '>', (Char.ofNat 0x60)]

def pathSet : EncodeSet := fragmentSet ++ ['#', '?', '\x7b', '\x7d']

/-- What is encoded in a user name or a password. -/
def userSet : EncodeSet := pathSet ++ ['/', ':', ';', '=', '@', '[', '\\', ']', '^', '|']

/-- What is encoded in a file name that becomes a segment. -/
def segmentSet : EncodeSet := pathSet ++ ['/', '%', '\\']

def querySet (special : Bool) : EncodeSet :=
  [' ', '"', '#', '<', '>'] ++ if special then ['\''] else []

def upperDigit (n : Nat) : Char :=
  if n < 10 then Char.ofNat (48 + n) else Char.ofNat (55 + n)

def encodeByte (set : EncodeSet) (b : UInt8) : List Char :=
  let n := b.toNat
  if n < 0x20 ∨ 0x7F ≤ n ∨ set.contains (Char.ofNat n) then
    ['%', upperDigit (n / 16), upperDigit (n % 16)]
  else [Char.ofNat n]

def encodeBytes (set : EncodeSet) (bs : List UInt8) : String :=
  String.ofList (bs.flatMap (encodeByte set))

def encode (set : EncodeSet) (cs : List Char) : String :=
  encodeBytes set (Text.Utf8.encode cs)

def decodeBytes : List UInt8 → List UInt8
  | 0x25 :: a :: b :: rest =>
    match Json.hexValue a, Json.hexValue b with
    | some x, some y => (x * 16 + y).toUInt8 :: decodeBytes rest
    | _, _ => 0x25 :: decodeBytes (a :: b :: rest)
  | b :: rest => b :: decodeBytes rest
  | [] => []

/-- The bytes that a text stands for. -/
def decode (s : String) : List UInt8 :=
  decodeBytes (Text.Utf8.ofString s)

end WorkflowLint.Url

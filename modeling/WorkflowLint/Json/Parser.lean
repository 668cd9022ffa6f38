import WorkflowLint.Json.Basic
import WorkflowLint.Text.Utf8
/-!
# Reading JSON text

`Json.parse` reads one value from bytes, with blanks around it and nothing else. Each reader
answers with what it read and the bytes after it, or with a cause and the number of bytes after
the place it reports; `Json.parse` turns that number into a line and a column. Arrays and objects
nest to a fixed depth, on which the recursion runs.

An integer that fits 64 bits, signed or unsigned, stays an integer, and any other number is a
float. Of fields with one key the last stays.
-/

namespace WorkflowLint.Json

/-- Why a text is no JSON value. -/
inductive SyntaxCause where
  | endOfValue
  | endOfList
  | endOfObject
  | endOfString
  | noColon
  | noListEnd
  | noObjectEnd
  | noWord
  | noValue
  | badEscape
  | badNumber
  | numberTooLarge
  | badUnicode
  | controlCharacter
  | keyNotString
  | loneSurrogate
  | trailingComma
  | trailingText
  | surrogateCut
  | tooDeep
  deriving DecidableEq

def SyntaxCause.text : SyntaxCause → String
  | .endOfValue => "EOF while parsing a value"
  | .endOfList => "EOF while parsing a list"
  | .endOfObject => "EOF while parsing an object"
  | .endOfString => "EOF while parsing a string"
  | .noColon => "expected `:`"
  | .noListEnd => "expected `,` or `]`"
  | .noObjectEnd => "expected `,` or `\x7d`"
  | .noWord => "expected ident"
  | .noValue => "expected value"
  | .badEscape => "invalid escape"
  | .badNumber => "invalid number"
  | .numberTooLarge => "number out of range"
  | .badUnicode => "invalid unicode code point"
  | .controlCharacter => "control character (\\u0000-\\u001F) found while parsing a string"
  | .keyNotString => "key must be a string"
  | .loneSurrogate => "lone leading surrogate in hex escape"
  | .trailingComma => "trailing comma"
  | .trailingText => "trailing characters"
  | .surrogateCut => "unexpected end of hex escape"
  | .tooDeep => "recursion limit exceeded"

/-- A cause and the number of bytes after the place where it was met. -/
structure Failure where
  cause : SyntaxCause
  left : Nat
  deriving DecidableEq

/-- Fail at the bytes read so far. -/
def failBefore {α : Type} (cause : SyntaxCause) (rest : List UInt8) : Except Failure α :=
  .error ⟨cause, rest.length⟩

/-- Fail at the next byte, or at the end when there is none. -/
def failAt {α : Type} (cause : SyntaxCause) (rest : List UInt8) : Except Failure α :=
  .error ⟨cause, rest.length - 1⟩

/-- A byte that may stand between tokens. -/
def isSpace (b : UInt8) : Bool := b = 0x20 || b = 0x0A || b = 0x09 || b = 0x0D

def skipSpace (s : List UInt8) : List UInt8 := s.dropWhile isSpace

def readWord : List UInt8 → List UInt8 → Except Failure (List UInt8)
  | [], s => .ok s
  | _ :: _, [] => failBefore .endOfValue []
  | w :: ws, b :: s => if b = w then readWord ws s else failBefore .noWord s

/-! ## Strings -/

def hexValue (b : UInt8) : Option Nat :=
  let n := b.toNat
  if 48 ≤ n ∧ n ≤ 57 then some (n - 48)
  else if 65 ≤ n ∧ n ≤ 70 then some (n - 55)
  else if 97 ≤ n ∧ n ≤ 102 then some (n - 87)
  else none

/-- The value of the first four bytes as hexadecimal digits. -/
def readHex (s : List UInt8) : Except Failure Nat :=
  match s with
  | a :: b :: c :: d :: rest =>
    match hexValue a, hexValue b, hexValue c, hexValue d with
    | some a, some b, some c, some d => .ok (((a * 16 + b) * 16 + c) * 16 + d)
    | _, _, _, _ => failBefore .badEscape rest
  | _ => failBefore .endOfString []

/-- The bytes of the character whose first half is the surrogate `n`, the second half being next.
It takes six bytes. -/
def readPair (n : Nat) (s : List UInt8) : Except Failure (List UInt8) :=
  match s with
  | [] => failBefore .endOfString []
  | b :: rest =>
    if b ≠ 0x5C then failBefore .surrogateCut rest
    else
      match rest with
      | [] => failBefore .endOfString []
      | b :: rest =>
        if b ≠ 0x75 then failBefore .surrogateCut rest
        else do
          let m ← readHex rest
          if m < 0xDC00 ∨ 0xDFFF < m then failBefore .loneSurrogate (rest.drop 4)
          else
            let code := 0x10000 + (n - 0xD800) * 0x400 + (m - 0xDC00)
            .ok (Text.Utf8.encodeChar (Char.ofNat code))

/-- What an escape stands for and how many bytes it takes after its backslash. -/
def readEscape (s : List UInt8) : Except Failure (List UInt8 × Nat) :=
  match s with
  | [] => failBefore .endOfString []
  | b :: rest =>
    if b = 0x22 ∨ b = 0x5C ∨ b = 0x2F then .ok ([b], 1)
    else if b = 0x62 then .ok ([0x08], 1)
    else if b = 0x66 then .ok ([0x0C], 1)
    else if b = 0x6E then .ok ([0x0A], 1)
    else if b = 0x72 then .ok ([0x0D], 1)
    else if b = 0x74 then .ok ([0x09], 1)
    else if b = 0x75 then do
      let n ← readHex rest
      if 0xDC00 ≤ n ∧ n ≤ 0xDFFF then failBefore .loneSurrogate (rest.drop 4)
      else if 0xD800 ≤ n ∧ n ≤ 0xDBFF then return (← readPair n (rest.drop 4), 11)
      else .ok (Text.Utf8.encodeChar (Char.ofNat n), 5)
    else failBefore .badEscape rest

/-- The bytes a quoted string stands for, read after its opening quote; `acc` are those read
before, last first. -/
def readQuoted (s acc : List UInt8) : Except Failure (List UInt8 × List UInt8) :=
  match s with
  | [] => failBefore .endOfString []
  | b :: rest =>
    if b = 0x22 then .ok (acc.reverse, rest)
    else if b = 0x5C then
      match readEscape rest with
      | .error e => .error e
      | .ok (bytes, width) => readQuoted (rest.drop width) (bytes.reverse ++ acc)
    else if b < 0x20 then failBefore .controlCharacter rest
    else readQuoted rest (b :: acc)
termination_by s.length
decreasing_by all_goals simp_wf; try omega

def readString (s : List UInt8) : Except Failure (String × List UInt8) := do
  let (bytes, rest) ← readQuoted s []
  match Text.Utf8.toString? bytes with
  | .ok text => .ok (text, rest)
  | .error _ => .error ⟨.badUnicode, rest.length + 1⟩

/-! ## Numbers -/

/-- The greatest number of digits read exactly. -/
def maxDigits : Nat := 0xFFFFFFFFFFFFFFFF

/-- The greatest written exponent that is read as a number. -/
def maxWritten : Nat := 0x7FFFFFFF

def digitValue (b : UInt8) : Option Nat :=
  if 48 ≤ b.toNat ∧ b.toNat ≤ 57 then some (b.toNat - 48) else none

def floatOf (negative : Bool) (digits : Nat) (exponent : Int) (rest : List UInt8) :
    Except Failure (Number × List UInt8) :=
  match Binary64.ofDecimal? digits exponent with
  | some x => .ok (.float { x with negative := negative }, rest)
  | none => failBefore .numberTooLarge rest

/-- The digits of an exponent after the first, `value` being that of those before. -/
def readExponentDigits (negative : Bool) (digits : Nat) (start : Int) (up : Bool) (value : Nat) :
    List UInt8 → Except Failure (Number × List UInt8)
  | [] => floatOf negative digits (if up then start + value else start - value) []
  | b :: rest =>
    match digitValue b with
    | none => floatOf negative digits (if up then start + value else start - value) (b :: rest)
    | some d =>
      if maxWritten < value * 10 + d then
        if digits ≠ 0 ∧ up then failBefore .numberTooLarge rest
        else .ok (.float (Binary64.zero negative), rest.dropWhile fun b => (digitValue b).isSome)
      else readExponentDigits negative digits start up (value * 10 + d) rest

def readExponent (negative : Bool) (digits : Nat) (start : Int) (s : List UInt8) :
    Except Failure (Number × List UInt8) :=
  let (up, s) := match s with
    | 0x2B :: rest => (true, rest)
    | 0x2D :: rest => (false, rest)
    | s => (true, s)
  match s with
  | [] => failBefore .endOfValue []
  | b :: rest =>
    match digitValue b with
    | some d => readExponentDigits negative digits start up d rest
    | none => failBefore .badNumber rest

/-- The end of a number after its digits: an exponent or nothing. -/
def readScale (negative : Bool) (digits : Nat) (exponent : Int) (s : List UInt8) :
    Except Failure (Number × List UInt8) :=
  match s with
  | [] => floatOf negative digits exponent []
  | b :: rest =>
    if b = 0x65 ∨ b = 0x45 then readExponent negative digits exponent rest
    else floatOf negative digits exponent (b :: rest)

/-- The digits after the point. Those that would not fit are passed over. -/
def readDecimals (negative : Bool) (digits : Nat) (exponent : Int) :
    List UInt8 → Except Failure (Number × List UInt8)
  | [] => readScale negative digits exponent []
  | b :: rest =>
    match digitValue b with
    | none => readScale negative digits exponent (b :: rest)
    | some d =>
      if maxDigits < digits * 10 + d then
        readScale negative digits exponent (rest.dropWhile fun b => (digitValue b).isSome)
      else readDecimals negative (digits * 10 + d) (exponent - 1) rest

/-- A fraction, read after its point; it has a digit. -/
def readFraction (negative : Bool) (digits : Nat) (exponent : Int) (s : List UInt8) :
    Except Failure (Number × List UInt8) :=
  match s with
  | [] => failAt .endOfValue []
  | b :: _ =>
    if (digitValue b).isNone then failAt .badNumber s
    else readDecimals negative digits exponent s

/-- The digits before the point past those that fit: each one more is a power of ten. -/
def readLong (negative : Bool) (digits : Nat) (exponent : Int) : List UInt8 → Except Failure (Number × List UInt8)
  | [] => floatOf negative digits exponent []
  | b :: rest =>
    if (digitValue b).isSome then readLong negative digits (exponent + 1) rest
    else if b = 0x2E then readFraction negative digits exponent rest
    else readScale negative digits exponent (b :: rest)

/-- The number of digits without point and exponent. A negative zero, and a negative number below
the 64-bit ones, is a float. -/
def wholeNumber (negative : Bool) (digits : Nat) : Number :=
  if !negative then .int digits
  else if 0 < digits ∧ digits ≤ 0x8000000000000000 then .int (-digits)
  else .float (((Binary64.ofNat? digits).getD (Binary64.zero false)).neg)

/-- The end of a number after the digits before the point. -/
def readTail (negative : Bool) (digits : Nat) (s : List UInt8) : Except Failure (Number × List UInt8) :=
  match s with
  | [] => .ok (wholeNumber negative digits, [])
  | b :: rest =>
    if b = 0x2E then readFraction negative digits 0 rest
    else if b = 0x65 ∨ b = 0x45 then readExponent negative digits 0 rest
    else .ok (wholeNumber negative digits, b :: rest)

/-- The digits before the point after the first, `digits` being the value of those before. -/
def readDigits (negative : Bool) (digits : Nat) : List UInt8 → Except Failure (Number × List UInt8)
  | [] => readTail negative digits []
  | b :: rest =>
    match digitValue b with
    | none => readTail negative digits (b :: rest)
    | some d =>
      if maxDigits < digits * 10 + d then readLong negative digits 0 (b :: rest)
      else readDigits negative (digits * 10 + d) rest

/-- A number, read after its sign. A zero stands alone before the point. -/
def readNumber (negative : Bool) (s : List UInt8) : Except Failure (Number × List UInt8) :=
  match s with
  | [] => failBefore .endOfValue []
  | b :: rest =>
    match digitValue b with
    | none => failBefore .badNumber rest
    | some 0 =>
      match rest with
      | c :: _ => if (digitValue c).isSome then failAt .badNumber rest else readTail negative 0 rest
      | [] => readTail negative 0 rest
    | some d => readDigits negative d rest

/-! ## Values -/

/-- The items of an array from an item on, read with `item`; `acc` are those before, last
first. -/
def readItems (item : List UInt8 → Except Failure (Json × List UInt8)) :
    Nat → List UInt8 → List Json → Except Failure (List Json × List UInt8)
  | 0, s, _ => failAt .endOfList s
  | fuel + 1, s, acc => do
    let (v, rest) ← item s
    match skipSpace rest with
    | [] => failAt .endOfList []
    | b :: rest =>
      if b = 0x5D then .ok ((v :: acc).reverse, rest)
      else if b = 0x2C then
        match skipSpace rest with
        | [] => failAt .endOfValue []
        | 0x5D :: rest => failAt .trailingComma (0x5D :: rest)
        | next => readItems item fuel next (v :: acc)
      else failAt .noListEnd (b :: rest)

/-- The fields of an object from a key on, read with `item`; `acc` are those before, last
first. -/
def readFields (item : List UInt8 → Except Failure (Json × List UInt8)) :
    Nat → List UInt8 → List (String × Json) → Except Failure (List (String × Json) × List UInt8)
  | 0, s, _ => failAt .endOfObject s
  | fuel + 1, s, acc =>
    match s with
    | 0x22 :: rest => do
      let (key, rest) ← readString rest
      match skipSpace rest with
      | [] => failAt .endOfObject []
      | 0x3A :: rest => do
        let (v, rest) ← item rest
        match skipSpace rest with
        | [] => failAt .endOfObject []
        | b :: rest =>
          if b = 0x7D then .ok (((key, v) :: acc).reverse, rest)
          else if b = 0x2C then
            match skipSpace rest with
            | [] => failAt .endOfValue []
            | 0x7D :: rest => failAt .trailingComma (0x7D :: rest)
            | next => readFields item fuel next ((key, v) :: acc)
          else failAt .noObjectEnd (b :: rest)
      | rest => failAt .noColon rest
    | s => failAt .keyNotString s

/-- A value whose arrays and objects nest less than `depth` deep. `fuel` bounds the number of
items of each. -/
def readValue (fuel : Nat) : (depth : Nat) → List UInt8 → Except Failure (Json × List UInt8)
  | depth, s =>
    match skipSpace s with
    | [] => failAt .endOfValue []
    | b :: rest =>
      if b = 0x6E then do return (.null, ← readWord [0x75, 0x6C, 0x6C] rest)
      else if b = 0x74 then do return (.bool true, ← readWord [0x72, 0x75, 0x65] rest)
      else if b = 0x66 then do return (.bool false, ← readWord [0x61, 0x6C, 0x73, 0x65] rest)
      else if b = 0x2D then do
        let (n, rest) ← readNumber true rest
        return (.number n, rest)
      else if (digitValue b).isSome then do
        let (n, rest) ← readNumber false (b :: rest)
        return (.number n, rest)
      else if b = 0x22 then do
        let (text, rest) ← readString rest
        return (.string text, rest)
      else if b = 0x5B then
        match depth with
        | 0 => failAt .tooDeep (b :: rest)
        | depth + 1 =>
          match skipSpace rest with
          | [] => failAt .endOfList []
          | 0x5D :: rest => .ok (.array [], rest)
          | next => do
            let (items, rest) ← readItems (readValue fuel depth) fuel next []
            return (.array items, rest)
      else if b = 0x7B then
        match depth with
        | 0 => failAt .tooDeep (b :: rest)
        | depth + 1 =>
          match skipSpace rest with
          | [] => failAt .endOfObject []
          | 0x7D :: rest => .ok (.fields [], rest)
          | next => do
            let (fs, rest) ← readFields (readValue fuel depth) fuel next []
            return (object fs, rest)
      else failAt .noValue (b :: rest)
termination_by structural depth => depth

/-- How deep arrays and objects nest. -/
def maxDepth : Nat := 127

/-- A cause and the place in the text where it was met, counted from line 1 and in bytes. -/
structure SyntaxError where
  cause : SyntaxCause
  line : Nat
  column : Nat
  deriving DecidableEq

def SyntaxError.text (e : SyntaxError) : String :=
  s!"{e.cause.text} at line {e.line} column {e.column}"

/-- The place of a failure in the text it was met in. -/
def Failure.locate (text : List UInt8) (f : Failure) : SyntaxError :=
  let before := text.take (text.length - f.left)
  { cause := f.cause
    line := before.count 0x0A + 1
    column := (before.reverse.takeWhile (· ≠ 0x0A)).length }

/-- The value of a text and nothing after it. -/
def readText (text : List UInt8) : Except Failure Json := do
  let (v, rest) ← readValue text.length maxDepth text
  match skipSpace rest with
  | [] => .ok v
  | rest => failAt .trailingText rest

def parse (text : List UInt8) : Except SyntaxError Json :=
  (readText text).mapError (·.locate text)

end WorkflowLint.Json

import WorkflowLint.Toml.Basic
import WorkflowLint.Toml.Text
/-!
# TOML numbers and dates

A value without quotes is a word of letters, digits and a few signs, and its form alone decides
what it is: a truth value, an integer in one of four bases, a float or a date-time.
-/

namespace WorkflowLint.Toml

/-- Digits of a base with single underscores between them, as a number. -/
def digits? (base : Nat) (cs : List Char) : Option Nat :=
  let value (c : Char) : Option Nat :=
    if c.toNat < 0x80 then (Json.hexValue c.toNat.toUInt8).filter (· < base) else none
  let rec go : List Char → Nat → Option Nat
    | [], n => some n
    | '_' :: c :: rest, n => do go rest (n * base + (← value c))
    | c :: rest, n => do go rest (n * base + (← value c))
  match cs with
  | [] => none
  | c :: rest => do go rest (← value c)

/-- Decimal digits of a whole number, which has no leading zero. -/
def whole? (cs : List Char) : Option Nat :=
  match cs with
  | '0' :: _ :: _ => none
  | cs => digits? 10 cs

/-- A word without its sign, and whether the sign is negative. -/
def unsign : List Char → Bool × List Char
  | '-' :: rest => (true, rest)
  | '+' :: rest => (false, rest)
  | cs => (false, cs)

def integer? (cs : List Char) : Option Int :=
  match cs with
  | '0' :: 'x' :: rest => (digits? 16 rest).map Int.ofNat
  | '0' :: 'o' :: rest => (digits? 8 rest).map Int.ofNat
  | '0' :: 'b' :: rest => (digits? 2 rest).map Int.ofNat
  | cs =>
    let (negative, rest) := unsign cs
    (whole? rest).map fun n => if negative then -(n : Int) else n

def isExponent : List Char → Bool
  | 'e' :: rest | 'E' :: rest => (digits? 10 (unsign rest).2).isSome
  | _ => false

def isFloat (cs : List Char) : Bool :=
  let rest := (unsign cs).2
  let inDigits (c : Char) : Bool := c.isDigit || c = '_'
  let front := rest.takeWhile inDigits
  if rest = ['i', 'n', 'f'] || rest = ['n', 'a', 'n'] then true
  else if (whole? front).isNone then false
  else
    match rest.dropWhile inDigits with
    | '.' :: after =>
      let tail := after.dropWhile inDigits
      (digits? 10 (after.takeWhile inDigits)).isSome && (tail.isEmpty || isExponent tail)
    | tail => isExponent tail

/-- The digits among the characters of a word, as a number. -/
def digitsIn (cs : List Char) : Nat :=
  (cs.filter Char.isDigit).foldl (fun n c => n * 10 + (c.toNat - 48)) 0

/-- A float's digits as a whole number, and the power of ten that goes with it. -/
def decimalOf (cs : List Char) : Nat × Int :=
  let isMark (c : Char) : Bool := c = 'e' || c = 'E'
  let front := (unsign cs).2.takeWhile fun c => !isMark c
  let (negative, power) := unsign ((cs.dropWhile fun c => !isMark c).drop 1)
  let places := ((front.dropWhile (· ≠ '.')).filter Char.isDigit).length
  let scale : Int := digitsIn power
  (digitsIn front, (if negative then -scale else scale) - places)

/-- Whether a decimal is nearer to a finite number than to infinity. Only a decimal between `10 ^ 308`
and `10 ^ 309` needs a closer look. -/
def isFinite (digits : Nat) (power : Int) : Bool :=
  let width := (toString digits).length + power
  if digits = 0 || width ≤ 308 then true
  else if 309 < width then false
  else (Binary64.round (digits * Nat.pow 10 power.toNat) (Nat.pow 10 (-power).toNat)).isSome

/-- Whether the word is a float that can be represented. -/
def isReadableFloat (cs : List Char) : Bool :=
  isFloat cs && isFinite (decimalOf cs).1 (decimalOf cs).2

/-! ## Date-times -/

def fixed? (n : Nat) (s : List Char) : Option (Nat × List Char) :=
  let cs := s.take n
  if cs.length = n ∧ cs.all Char.isDigit then
    some (cs.foldl (fun v c => v * 10 + (c.toNat - 48)) 0, s.drop n)
  else none

/-- The text after a character, if it comes next. -/
def after? (c : Char) : List Char → Option (List Char)
  | d :: rest => if c = d then some rest else none
  | [] => none

def daysIn (year month : Nat) : Nat :=
  if month = 2 then
    if year % 4 = 0 ∧ (year % 100 ≠ 0 ∨ year % 400 = 0) then 29 else 28
  else if month = 4 ∨ month = 6 ∨ month = 9 ∨ month = 11 then 30
  else 31

def date? (s : List Char) : Option (List Char × List Char) := do
  let (year, rest) ← fixed? 4 s
  let (month, rest) ← fixed? 2 (← after? '-' rest)
  let (day, rest) ← fixed? 2 (← after? '-' rest)
  if 1 ≤ month ∧ month ≤ 12 ∧ 1 ≤ day ∧ day ≤ daysIn year month then some (s.take 10, rest)
  else none

/-- The fraction of a second, cut to nine digits and without trailing zeros. -/
def fraction? (s : List Char) : Option (List Char × List Char) :=
  match s with
  | '.' :: rest =>
    let cs := rest.takeWhile Char.isDigit
    if cs.isEmpty then none
    else some ('.' :: ((cs.take 9).reverse.dropWhile (· = '0')).reverse, rest.dropWhile Char.isDigit)
  | s => some ([], s)

/-- A time of day; the seconds may be missing. -/
def time? (s : List Char) : Option (List Char × List Char) := do
  let (hour, rest) ← fixed? 2 s
  let (minute, rest) ← fixed? 2 (← after? ':' rest)
  if 23 < hour ∨ 59 < minute then none
  else
    match rest with
    | ':' :: rest => do
      let (second, rest) ← fixed? 2 rest
      if 60 < second then none
      else do
        let (part, rest) ← fraction? rest
        return (s.take 8 ++ part, rest)
    | rest => return (s.take 5, rest)

/-- The distance from universal time; none is written for a local time. -/
def offset? (s : List Char) : Option (List Char) :=
  match s with
  | [] => some []
  | ['Z'] | ['z'] => some ['Z']
  | sign :: rest =>
    if sign = '+' ∨ sign = '-' then do
      let (hour, after) ← fixed? 2 rest
      let (minute, after) ← fixed? 2 (← after? ':' after)
      if hour ≤ 23 ∧ minute ≤ 59 ∧ after.isEmpty then some s else none
    else none

/-- The word as a date, a time or both, in its usual form. -/
def dateTime? (s : List Char) : Option String :=
  match date? s with
  | some (date, []) => some (String.ofList date)
  | some (date, sep :: rest) =>
    if sep = 'T' ∨ sep = 't' ∨ sep = ' ' then do
      let (time, rest) ← time? rest
      let offset ← offset? rest
      return String.ofList (date ++ ['T'] ++ time ++ offset)
    else none
  | none =>
    match time? s with
    | some (time, []) => some (String.ofList time)
    | _ => none

/-- A character of a word. -/
def isWordChar (c : Char) : Bool :=
  c.isAlphanum || c = '_' || c = '-' || c = '+' || c = '.' || c = ':'

/-- A word and the text after it. A blank joins a date to the time after it. -/
def word (s : List Char) : List Char × List Char :=
  let cs := s.takeWhile isWordChar
  let rest := s.dropWhile isWordChar
  match date? cs, rest with
  | some (_, []), ' ' :: after =>
    match after with
    | c :: _ =>
      if c.isDigit then (cs ++ ' ' :: after.takeWhile isWordChar, after.dropWhile isWordChar)
      else (cs, rest)
    | [] => (cs, rest)
  | _, _ => (cs, rest)

/-- The value of a word. -/
def scalarOf? (cs : List Char) : Option Node :=
  if cs = ['t', 'r', 'u', 'e'] then some (.bool true)
  else if cs = ['f', 'a', 'l', 's', 'e'] then some (.bool false)
  else
    match integer? cs with
    | some n => some (.integer n)
    | none =>
      if isReadableFloat cs then some .float
      else (dateTime? cs).map .dateTime

end WorkflowLint.Toml

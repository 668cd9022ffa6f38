import WorkflowLint.Json.Parser
import WorkflowLint.Json.Printer
import WorkflowLint.Text.Blank
/-!
# Frames

A frame is a block of header lines, an empty line and a body of JSON, whose length in bytes one of
the headers gives. `next` reads one frame off the bytes that have come in; it waits while they are
not enough and more may come. Reading the frames that were written gives back the values.
-/

namespace WorkflowLint

namespace Frame

/-- The greatest length of a body. -/
def maxLength : Nat := 4 * 1024 * 1024

/-- Why a stream cannot be read on. -/
inductive Fault where
  /-- A header line is no text. -/
  | notText (at_ : Text.Utf8.Malformed)
  /-- The stream ended inside a body. -/
  | cutBody
  /-- The stream ended inside a block of headers. -/
  | cutHeaders
  | noLength
  | badLength (value : String)
  | tooLong (length : Nat)
  deriving DecidableEq

/-- Where malformed text was found. -/
def malformedText (m : Text.Utf8.Malformed) : String :=
  match m.width with
  | some n => s!"invalid utf-8 sequence of {n} bytes from index {m.start}"
  | none => s!"incomplete utf-8 byte sequence from index {m.start}"

def Fault.text : Fault → String
  | .notText m => s!"i/o error on the message stream: {malformedText m}"
  | .cutBody => "i/o error on the message stream: early eof"
  | .cutHeaders => "unexpected EOF while reading headers"
  | .noLength => "missing Content-Length header"
  | .badLength value => s!"invalid Content-Length value '{value}'"
  | .tooLong length => s!"Content-Length {length} exceeds maximum {maxLength}"

/-- What is said of a body that is no JSON. -/
def unreadableText (e : Json.SyntaxError) : String :=
  s!"frame body is not valid JSON: {e.text}"

/-! ## Headers -/

/-- The name of the header that counts, in lower case. -/
def lengthName : List Char := "content-length".toList

/-- A number in decimal digits, perhaps after a plus sign, of 64 bits. -/
def number? (cs : List Char) : Option Nat :=
  let digits := match cs with
    | '+' :: rest => rest
    | cs => cs
  if digits ≠ [] ∧ digits.all Char.isDigit then
    let n := digits.foldl (fun n c => n * 10 + (c.toNat - 48)) 0
    if n < 0x10000000000000000 then some n else none
  else none

/-- What a header line says of the length; none when it is about something else. -/
def length? (line : List Char) : Option (Except Fault Nat) :=
  match line.dropWhile (· ≠ ':') with
  | [] => none
  | _ :: value =>
    let name := Text.trim (line.takeWhile (· ≠ ':'))
    if name.map Char.toLower = lengthName then
      let value := Text.trim value
      some (match number? value with
        | some n => .ok n
        | none => .error (.badLength (String.ofList value)))
    else none

/-- The first line with its line feed, and what follows. Once the stream is closed its rest is a
line too. -/
def takeLine (closed : Bool) (s : List UInt8) : Option (List UInt8 × List UInt8) :=
  match s.dropWhile (· ≠ 0x0A) with
  | [] => if closed ∧ s ≠ [] then some (s, []) else none
  | lf :: rest => some (s.takeWhile (· ≠ 0x0A) ++ [lf], rest)

theorem length_dropWhile_le {α : Type} (p : α → Bool) (s : List α) :
    (s.dropWhile p).length ≤ s.length := by
  induction s with
  | nil => simp
  | cons a s ih => simp only [List.dropWhile_cons]; split <;> simp; omega

theorem length_of_takeLine {closed : Bool} {s line rest : List UInt8}
    (h : takeLine closed s = some (line, rest)) : rest.length < s.length := by
  unfold takeLine at h
  split at h
  · split at h
    · next hs =>
      simp only [Option.some.injEq, Prod.mk.injEq] at h
      have := List.length_pos_iff.2 hs.2
      simp [← h.2, this]
    · simp at h
  · next lf r hd =>
    simp only [Option.some.injEq, Prod.mk.injEq] at h
    have := length_dropWhile_le (· ≠ 0x0A) s
    rw [hd, List.length_cons, h.2] at this
    omega

/-- What reading a block of headers comes to. -/
inductive Headers where
  | waiting
  | ended
  | broken (fault : Fault)
  | block (length : Nat) (rest : List UInt8)

/-- Read a block of headers. `length` is the last length given and `started` tells whether a line
has been read. -/
def headers (closed : Bool) (length : Option Nat) (started : Bool) (s : List UInt8) : Headers :=
  match h : takeLine closed s with
  | none =>
    if !closed then .waiting else if started then .broken .cutHeaders else .ended
  | some (line, rest) =>
    have := length_of_takeLine h
    match Text.Utf8.decode? line with
    | .error m => .broken (.notText m)
    | .ok cs =>
      match Text.trim cs with
      | [] =>
        match length with
        | none => .broken .noLength
        | some n => .block n rest
      | header =>
        match length? header with
        | none => headers closed length true rest
        | some (.ok n) => headers closed (some n) true rest
        | some (.error f) => .broken f
termination_by s.length

/-! ## Frames -/

/-- What reading a frame comes to. -/
inductive Next where
  /-- More bytes have to come in. -/
  | waiting
  /-- The stream ended between frames. -/
  | ended
  | broken (fault : Fault)
  /-- A body, read as JSON, and what follows it. -/
  | body (value : Except Json.SyntaxError Json) (rest : List UInt8)

def next (closed : Bool) (s : List UInt8) : Next :=
  match headers closed none false s with
  | .waiting => .waiting
  | .ended => .ended
  | .broken f => .broken f
  | .block n rest =>
    if maxLength < n then .broken (.tooLong n)
    else if rest.length < n then if closed then .broken .cutBody else .waiting
    else .body (Json.parse (rest.take n)) (rest.drop n)

theorem length_of_headers {closed : Bool} {length : Option Nat} {started : Bool}
    {s : List UInt8} {n : Nat} {rest : List UInt8}
    (h : headers closed length started s = .block n rest) : rest.length < s.length := by
  fun_induction headers closed length started s with
  | case1 => simp at h
  | case2 => simp at h
  | case3 => simp at h
  | case4 => simp at h
  | case5 => simp at h
  | case6 => simp_all
  | case7 => rename_i ih; have := ih h; omega
  | case8 => rename_i ih; have := ih h; omega
  | case9 => simp at h

theorem length_of_next {closed : Bool} {s rest : List UInt8}
    {value : Except Json.SyntaxError Json} (h : next closed s = .body value rest) :
    rest.length < s.length := by
  unfold next at h
  split at h
  · simp at h
  · simp at h
  · simp at h
  · next n r hh =>
    have := length_of_headers hh
    split at h
    · simp at h
    · split at h
      · split at h <;> simp at h
      · simp only [Next.body.injEq] at h
        rw [← h.2, List.length_drop]
        omega

inductive Stop where
  | waiting (rest : List UInt8)
  | ended
  | broken (fault : Fault)

/-- The bodies of all frames that have come in, and how reading them stopped. -/
def readAll (closed : Bool) (s : List UInt8) : List (Except Json.SyntaxError Json) × Stop :=
  match h : next closed s with
  | .waiting => ([], .waiting s)
  | .ended => ([], .ended)
  | .broken f => ([], .broken f)
  | .body value rest =>
    have := length_of_next h
    let (values, stop) := readAll closed rest
    (value :: values, stop)
termination_by s.length

/-- How many more bytes the next frame needs at least. -/
def wanted (s : List UInt8) : Nat :=
  match headers false none false s with
  | .block n rest => max 1 (n - rest.length)
  | _ => 1

def write (v : Json) : List UInt8 :=
  let body := Json.toBytes v
  Text.Utf8.ofString s!"Content-Length: {body.length}\r\n\r\n" ++ body

def writeAll (vs : List Json) : List UInt8 := vs.flatMap write

end Frame

end WorkflowLint

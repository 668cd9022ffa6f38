import WorkflowLint.Url.Percent
import WorkflowLint.Url.Punycode
/-!
# Hosts

The host of a URL is a domain, an address of either version, or, where the scheme does not say
what a host is, any text without delimiters. Domains are kept in lower case and in ASCII; a last
label that is a number makes a domain an address.
-/

namespace WorkflowLint.Url

/-- Why a text is no URL. -/
inductive Fault where
  | emptyHost
  | badDomain
  | badPort
  | badIpv4
  | badIpv6
  | badHostCharacter
  | noScheme
  deriving DecidableEq, Inhabited

def Fault.text : Fault → String
  | .emptyHost => "empty host"
  | .badDomain => "invalid international domain name"
  | .badPort => "invalid port number"
  | .badIpv4 => "invalid IPv4 address"
  | .badIpv6 => "invalid IPv6 address"
  | .badHostCharacter => "invalid domain character"
  | .noScheme => "relative URL without a base"

inductive Host where
  | domain (name : String)
  | ipv4 (address : Nat)
  | ipv6 (pieces : List Nat)
  deriving DecidableEq, Inhabited

/-! ## Addresses of version 4 -/

def digits? (base : Nat) (cs : List Char) : Option Nat :=
  cs.foldlM
    (fun n c => do
      let v ← if c.toNat < 0x80 then Json.hexValue c.toNat.toUInt8 else none
      if v < base then some (n * base + v) else none)
    0

/-- A number of an address: decimal, or octal or hexadecimal by its leading zero. -/
def addressNumber? (cs : List Char) : Option Nat :=
  match cs with
  | [] => none
  | '0' :: 'x' :: rest | '0' :: 'X' :: rest => digits? 16 rest
  | '0' :: d :: rest => digits? 8 (d :: rest)
  | cs => digits? 10 cs

def labels (cs : List Char) : List (List Char) := cs.splitOn '.'

/-- The labels without an empty one at the end. -/
def ownLabels (cs : List Char) : List (List Char) :=
  let ls := labels cs
  if 1 < ls.length ∧ ls.getLast? = some [] then ls.dropLast else ls

def endsInNumber (cs : List Char) : Bool :=
  match (ownLabels cs).getLast? with
  | none => false
  | some last =>
    (!last.isEmpty && last.all Char.isDigit) || (addressNumber? last).isSome

/-- The address of a domain whose last label is a number. -/
def ipv4? (cs : List Char) : Except Fault Nat :=
  let parts := ownLabels cs
  match parts.mapM addressNumber? with
  | none => .error .badIpv4
  | some numbers =>
    match numbers.reverse with
    | [] => .error .badIpv4
    | last :: front =>
      let front := front.reverse
      if 3 < front.length ∨ front.any (255 < ·) ∨ Nat.pow 256 (4 - front.length) ≤ last then
        .error .badIpv4
      else
        .ok ((front.zipIdx.foldl (fun sum (n, i) => sum + n * Nat.pow 256 (3 - i)) 0) + last)

def ipv4Text (address : Nat) : String :=
  ".".intercalate [toString (address / 256 / 256 / 256 % 256), toString (address / 256 / 256 % 256),
    toString (address / 256 % 256), toString (address % 256)]

/-! ## Addresses of version 6 -/

/-- A piece of up to four hexadecimal digits. -/
def piece? (cs : List Char) : Option Nat :=
  if cs.isEmpty ∨ 4 < cs.length then none else digits? 16 cs

/-- The two pieces an address of version 4 at the end stands for. -/
def tailPieces? (cs : List Char) : Option (List Nat) := do
  let parts := labels cs
  let numbers ← parts.mapM fun p =>
    if p.isEmpty ∨ 3 < p.length ∨ (1 < p.length ∧ p.head? = some '0') then none
    else (digits? 10 p).filter (· ≤ 255)
  match numbers with
  | [a, b, c, d] => some [a * 256 + b, c * 256 + d]
  | _ => none

/-- Pieces with colons between, the last perhaps an address of version 4. -/
def pieces? (cs : List Char) (tail : Bool) : Option (List Nat) :=
  if cs.isEmpty then some []
  else
    let parts := cs.splitOn ':'
    match parts.reverse with
    | [] => some []
    | last :: front => do
      let front ← front.reverse.mapM piece?
      if tail ∧ last.contains '.' then return front ++ (← tailPieces? last)
      else return front ++ [← piece? last]

/-- The text before and after the first double colon. -/
def splitGap : List Char → Option (List Char × List Char)
  | ':' :: ':' :: rest => some ([], rest)
  | c :: rest => (splitGap rest).map fun (a, b) => (c :: a, b)
  | [] => none

/-- The eight pieces of an address; a double colon stands for zeros. -/
def ipv6? (cs : List Char) : Except Fault (List Nat) :=
  let found : Option (List Nat) :=
    match splitGap cs with
    | none => (pieces? cs true).filter (·.length = 8)
    | some (front, back) => do
      let front ← pieces? front false
      let back ← pieces? back true
      if 7 < front.length + back.length then none
      else some (front ++ List.replicate (8 - front.length - back.length) 0 ++ back)
  match found with
  | some ps => .ok ps
  | none => .error .badIpv6

/-- The number of zeros at the front. -/
def zeros (ps : List Nat) : Nat := (ps.takeWhile (· = 0)).length

/-- The place and length of the first longest run of zeros. -/
def longestGap (ps : List Nat) : Nat × Nat :=
  ((List.range ps.length).map fun i => (i, zeros (ps.drop i))).foldl
    (fun best next => if best.2 < next.2 then next else best) (0, 0)

/-- The text of an address: the longest run of at least two zeros is a double colon. -/
def ipv6Text (ps : List Nat) : String :=
  let hex (ps : List Nat) : String :=
    ":".intercalate (ps.map fun n => String.ofList (Nat.toDigits 16 n))
  let (at_, size) := longestGap ps
  if size < 2 then hex ps
  else hex (ps.take at_) ++ "::" ++ hex (ps.drop (at_ + size))

/-! ## Domains -/

/-- An ASCII character that no domain has. -/
def isForbidden (c : Char) : Bool :=
  c.toNat ≤ 0x20 || c.toNat = 0x7F ||
    ['%', '#', '/', ':', '<', '>', '?', '@', '[', '\\', ']', '^', '|'].contains c

/-- The lower case of a letter of the Latin, Greek and Cyrillic alphabets. -/
def lower (c : Char) : Char :=
  let n := c.toNat
  if n < 0x80 then c.toLower
  else if 0xC0 ≤ n ∧ n ≤ 0xDE ∧ n ≠ 0xD7 then Char.ofNat (n + 32)
  else if 0x100 ≤ n ∧ n ≤ 0x137 ∧ n ≠ 0x130 ∧ n % 2 = 0 then Char.ofNat (n + 1)
  else if 0x139 ≤ n ∧ n ≤ 0x148 ∧ n % 2 = 1 then Char.ofNat (n + 1)
  else if 0x14A ≤ n ∧ n ≤ 0x177 ∧ n % 2 = 0 then Char.ofNat (n + 1)
  else if 0x179 ≤ n ∧ n ≤ 0x17E ∧ n % 2 = 1 then Char.ofNat (n + 1)
  else if 0x391 ≤ n ∧ n ≤ 0x3A9 then Char.ofNat (n + 32)
  else if 0x400 ≤ n ∧ n ≤ 0x40F then Char.ofNat (n + 80)
  else if 0x410 ≤ n ∧ n ≤ 0x42F then Char.ofNat (n + 32)
  else c

/-- A character of full width as the ASCII character it is a form of. -/
def halfWidth (c : Char) : Char :=
  if 0xFF01 ≤ c.toNat ∧ c.toNat ≤ 0xFF5E then Char.ofNat (c.toNat - 0xFEE0) else c

/-- Whether a domain is read as if the character was not there. -/
def isIgnored (c : Char) : Bool :=
  [0xAD, 0x200B, 0x2060, 0x2064, 0xFEFF].contains c.toNat || (0xFE00 ≤ c.toNat && c.toNat ≤ 0xFE0F)

/-- Whether a dot of some script ends a label. -/
def isStop (c : Char) : Bool := c = '.' || c.toNat = 0x3002 || c.toNat = 0xFF61

/-- A label in ASCII. -/
def asciiLabel (label : List Char) : List Char :=
  if label.all (·.toNat < 0x80) then label else ['x', 'n', '-', '-'] ++ Punycode.encode label

/-- A domain in ASCII and in lower case. -/
def asciiDomain? (bytes : List UInt8) : Except Fault (List Char) :=
  match Text.Utf8.decode? bytes with
  | .error _ => .error .badDomain
  | .ok cs =>
    let cs := (cs.filter fun c => !isIgnored c).map fun c =>
      let c := halfWidth c
      if isStop c then '.' else lower c
    let cs := ['.'].intercalate ((labels cs).map asciiLabel)
    if cs.any isForbidden then .error .badDomain else .ok cs

/-- An address in brackets, if the text is one. -/
def bracketed? (cs : List Char) : Option (Except Fault Host) :=
  match cs with
  | '[' :: rest =>
    if rest.getLast? = some ']' then some ((ipv6? rest.dropLast).map .ipv6)
    else some (.error .badIpv6)
  | _ => none

/-- The host of a scheme that knows domains. -/
def Host.parse (cs : List Char) : Except Fault Host :=
  match bracketed? cs with
  | some host => host
  | none => do
    let name ← asciiDomain? (decodeBytes (Text.Utf8.encode cs))
    if name.isEmpty then .error .emptyHost
    else if endsInNumber name then return .ipv4 (← ipv4? name)
    else return .domain (String.ofList name)

def Host.parseOpaque (cs : List Char) : Except Fault Host :=
  match bracketed? cs with
  | some host => host
  | none =>
    let bad (c : Char) : Bool :=
      c.toNat = 0 || [' ', '#', '/', ':', '<', '>', '?', '@', '[', '\\', ']', '^', '|'].contains c
    if cs.any bad then .error .badHostCharacter else .ok (.domain (encode controlSet cs))

def Host.text : Host → String
  | .domain name => name
  | .ipv4 address => ipv4Text address
  | .ipv6 ps => "[" ++ ipv6Text ps ++ "]"

end WorkflowLint.Url

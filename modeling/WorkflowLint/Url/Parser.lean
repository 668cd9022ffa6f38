import WorkflowLint.Url.Basic
/-!
# Reading URLs

`Url.parse` reads a text as a URL that stands alone. Blanks and control characters around it and
line breaks and tabs anywhere in it are left out. Special schemes know domains and default ports
and take a backslash for a slash; the scheme of files may leave out its slashes.
-/

namespace WorkflowLint.Url

/-- The default port of a special scheme other than that of files. -/
def defaultPort? : String → Option Nat
  | "http" => some 80
  | "ws" => some 80
  | "https" => some 443
  | "wss" => some 443
  | "ftp" => some 21
  | _ => none

def isSpecial (scheme : String) : Bool :=
  scheme = fileScheme || (defaultPort? scheme).isSome

/-- Whether a character separates segments under a scheme. -/
def isSlash (special : Bool) (c : Char) : Bool := c = '/' || (special && c = '\\')

/-- Whether a character ends an authority. -/
def endsAuthority (special : Bool) (c : Char) : Bool := isSlash special c || c = '?' || c = '#'

/-- The text without what is left out. -/
def clean (cs : List Char) : List Char :=
  let outer (c : Char) : Bool := c.toNat ≤ 0x20
  let cs := ((cs.dropWhile outer).reverse.dropWhile outer).reverse
  cs.filter fun c => c ≠ '\t' ∧ c ≠ '\n' ∧ c ≠ '\r'

/-- The scheme and the text after its colon. -/
def scheme? (cs : List Char) : Option (String × List Char) :=
  let inner (c : Char) : Bool := c.isAlphanum || c = '+' || c = '-' || c = '.'
  match cs with
  | c :: _ =>
    if c.isAlpha then
      match cs.dropWhile inner with
      | ':' :: rest => some ((String.ofList (cs.takeWhile inner)).toLower, rest)
      | _ => none
    else none
  | [] => none

/-! ## Paths -/

/-- A segment that stays where it is. -/
def isDot (s : String) : Bool := ["." , "%2e"].contains s.toLower

/-- A segment that goes up. -/
def isDotDot (s : String) : Bool :=
  ["..", "%2e.", ".%2e", "%2e%2e"].contains s.toLower

/-- A drive letter with its colon. -/
def isDrive (s : String) : Bool :=
  match s.toList with
  | [c, ':'] => c.isAlpha
  | _ => false

/-- The segments without the last one, unless it is the drive of a file. -/
def shorten (file : Bool) (ss : List String) : List String :=
  match ss with
  | [s] => if file && isDrive s then ss else []
  | ss => ss.dropLast

/-- Add a segment; `last` when no slash follows it. -/
def addSegment (file last : Bool) (ss : List String) (cs : List Char) : List String :=
  let s := encode pathSet cs
  if isDotDot s then
    let ss := shorten file ss
    if last then ss ++ [""] else ss
  else if isDot s then
    if last then ss ++ [""] else ss
  else if file && ss.all (· = "") then
    match s.toList with
    | [c, '|'] => if c.isAlpha then ss ++ [String.ofList [c, ':']] else ss ++ [s]
    | c :: ':' :: d :: rest =>
      if c.isAlpha then ss ++ [String.ofList [c, ':'], String.ofList (d :: rest)] else ss ++ [s]
    | _ => ss ++ [s]
  else ss ++ [s]

/-- Add the segments of a text, in order. -/
def addSegments (file : Bool) : List String → List (List Char) → List String
  | ss, [] => ss
  | ss, [cs] => addSegment file true ss cs
  | ss, cs :: rest => addSegments file (addSegment file false ss cs) rest

def cutSegments (special : Bool) (cs : List Char) : List (List Char) :=
  (cs.map fun c => if isSlash special c then '/' else c).splitOn '/'

/-- The segments of a path, read after its first slash. The path of a file has no empty segment at
its front but the only one. -/
def readSegments (scheme : String) (cs : List Char) : List String :=
  let file := scheme = fileScheme
  let ss := addSegments file [] (cutSegments (isSpecial scheme) cs)
  if file then
    match ss.dropWhile (· = "") with
    | [] => [""]
    | ss => ss
  else ss

/-! ## Query and fragment -/

/-- The text before the query and the fragment, and these. -/
def splitTail (cs : List Char) : List Char × Option (List Char) × Option (List Char) :=
  let (front, fragment) := match cs.dropWhile (· ≠ '#') with
    | [] => (cs, none)
    | _ :: rest => (cs.takeWhile (· ≠ '#'), some rest)
  match front.dropWhile (· ≠ '?') with
  | [] => (front, none, fragment)
  | _ :: query => (front.takeWhile (· ≠ '?'), some query, fragment)

/-! ## Authorities -/

/-- The text after the last at sign, and the login before it. -/
def splitLogin (cs : List Char) : Option (List Char) × List Char :=
  match cs.reverse.dropWhile (· ≠ '@') with
  | [] => (none, cs)
  | _ :: login => (some login.reverse, (cs.reverse.takeWhile (· ≠ '@')).reverse)

/-- The host and the text after the first colon outside brackets. -/
def splitPort (cs : List Char) : List Char × Option (List Char) :=
  let rec go (inside : Bool) : List Char → List Char → List Char × Option (List Char)
    | [], acc => (acc.reverse, none)
    | c :: rest, acc =>
      if c = ':' && !inside then (acc.reverse, some rest)
      else go (if c = '[' then true else if c = ']' then false else inside) rest (c :: acc)
  go false cs []

/-- The port; none when it is empty or the default one. -/
def port? (scheme : String) (cs : List Char) : Except Fault (Option Nat) :=
  if !cs.all Char.isDigit then .error .badPort
  else if cs.isEmpty then .ok none
  else
    let n := cs.foldl (fun n c => min 65536 (n * 10 + (c.toNat - 48))) 0
    if 65535 < n then .error .badPort
    else .ok (if defaultPort? scheme = some n then none else some n)

/-- The user name and the password of a login. -/
def readLogin (cs : List Char) : String × Option String :=
  let user := encode userSet (cs.takeWhile (· ≠ ':'))
  match cs.dropWhile (· ≠ ':') with
  | _ :: p :: password => (user, some (encode userSet (p :: password)))
  | _ => (user, none)

/-- An authority, read after its two slashes. -/
def readAuthority (scheme : String) (cs : List Char) : Except Fault Authority := do
  let (login, cs) := splitLogin cs
  if login = some [] ∧ cs = [] then .error .emptyHost
  else
    let (user, password) := (login.map readLogin).getD ("", none)
    let (hostText, portText) := splitPort cs
    let special := isSpecial scheme
    if hostText.isEmpty ∧ (special ∨ portText.isSome) then .error .emptyHost
    else
      let host ← if special then Host.parse hostText else Host.parseOpaque hostText
      let host := if host = .domain "" then none else some host
      let port ← port? scheme (portText.getD [])
      if host = none ∧ (user ≠ "" ∨ password.isSome) then .error .emptyHost
      else return { user, password, host, port }

/-- The authority of a file: a host, which is left out when it is this one. -/
def readFileHost (cs : List Char) : Except Fault Authority := do
  if cs.isEmpty then return {}
  else
    let host ← Host.parse cs
    return { host := if host = .domain "localhost" then none else some host }

/-! ## URLs -/

/-- Whether a text is a drive letter with a colon or a bar. -/
def isWrittenDrive (cs : List Char) : Bool :=
  match cs with
  | [c, d] => c.isAlpha && (d = ':' || d = '|')
  | _ => false

/-- The authority and segments of a file, read after the colon. A host goes away before a drive
letter. -/
def readFile (cs : List Char) : Except Fault (Authority × List String) :=
  match cs with
  | a :: b :: rest =>
    if isSlash true a && isSlash true b then
      let hostText := rest.takeWhile fun c => !endsAuthority true c
      if isWrittenDrive hostText then .ok ({}, readSegments fileScheme rest)
      else do
        let authority ← readFileHost hostText
        let ss := readSegments fileScheme ((rest.drop hostText.length).drop 1)
        return (if (ss.head?.map isDrive).getD false then {} else authority, ss)
    else if isSlash true a then .ok ({}, readSegments fileScheme (b :: rest))
    else .ok ({}, readSegments fileScheme cs)
  | [a] => .ok ({}, readSegments fileScheme (if isSlash true a then [] else cs))
  | [] => .ok ({}, [""])

/-- The authority and segments after two slashes. -/
def readHierarchy (scheme : String) (cs : List Char) : Except Fault (Authority × List String) := do
  let special := isSpecial scheme
  let authority ← readAuthority scheme (cs.takeWhile fun c => !endsAuthority special c)
  match cs.dropWhile fun c => !endsAuthority special c with
  | [] => return (authority, if special then [""] else [])
  | _ :: rest => return (authority, readSegments scheme rest)

def parse (s : String) : Except Fault Url :=
  match scheme? (clean s.toList) with
  | none => .error .noScheme
  | some (scheme, rest) => do
    let (front, query, fragment) := splitTail rest
    let query := query.map (encode (querySet (isSpecial scheme)))
    let fragment := fragment.map (encode fragmentSet)
    if scheme = fileScheme then
      let (authority, ss) ← readFile front
      return { scheme, authority := some authority, tail := .segments ss, query, fragment }
    else if isSpecial scheme then
      let (authority, ss) ← readHierarchy scheme (front.dropWhile (isSlash true))
      return { scheme, authority := some authority, tail := .segments ss, query, fragment }
    else
      match front with
      | '/' :: '/' :: rest =>
        let (authority, ss) ← readHierarchy scheme rest
        return { scheme, authority := some authority, tail := .segments ss, query, fragment }
      | '/' :: rest =>
        return { scheme, authority := none, tail := .segments (readSegments scheme rest),
                 query, fragment }
      | front =>
        return { scheme, authority := none, tail := .opaqueText (encode controlSet front),
                 query, fragment }

end WorkflowLint.Url

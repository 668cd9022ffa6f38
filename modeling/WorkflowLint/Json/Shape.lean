import WorkflowLint.Json.Printer
import WorkflowLint.Text.Quoted
/-!
# Expected shapes

A typed reader takes a JSON value to a value of a type or says in which way it does not fit. A
record is read from an object, whose fields are visited in their order, or from an array, whose
items are its fields in the order of declaration; the first field that does not fit is reported.
-/

namespace WorkflowLint.Json

/-- In which way a value does not fit. -/
inductive Mismatch where
  | kind (found expected : String)
  | range (found expected : String)
  | length (found : Nat) (expected : String)
  | variant (found : String) (known : List String)
  | missing (field : String)
  | duplicate (field : String)
  deriving DecidableEq

/-- Names in backticks, with commas between. -/
def backticked (names : List String) : String :=
  ", ".intercalate (names.map fun n => "`" ++ n ++ "`")

def Mismatch.text : Mismatch → String
  | .kind found expected => s!"invalid type: {found}, expected {expected}"
  | .range found expected => s!"invalid value: {found}, expected {expected}"
  | .length found expected => s!"invalid length {found}, expected {expected}"
  | .variant found known => s!"unknown variant `{found}`, expected one of {backticked known}"
  | .missing field => s!"missing field `{field}`"
  | .duplicate field => s!"duplicate field `{field}`"

/-- How a message names a value: its kind, and the value itself when it is a scalar. -/
def describe : Json → String
  | .null => "null"
  | .bool b => s!"boolean `{b}`"
  | .number (.int n) => s!"integer `{n}`"
  | .number (.float x) => s!"floating point `{floatText x}`"
  | .string s => s!"string {Text.quoted s}"
  | .array _ => "sequence"
  | .fields _ => "map"

/-- A typed reader. -/
abbrev Reader (α : Type) := Json → Except Mismatch α

namespace Reader

/-- The value is of another kind. -/
def refuse {α : Type} (expected : String) (v : Json) : Except Mismatch α :=
  .error (.kind (describe v) expected)

def any : Reader Json := .ok

def string : Reader String
  | .string s => .ok s
  | v => refuse "a string" v

def bool : Reader Bool
  | .bool b => .ok b
  | v => refuse "a boolean" v

/-- An integer between two bounds; `name` names that range. -/
def integer (name : String) (low high : Int) : Reader Int
  | .number (.int n) =>
    if low ≤ n ∧ n ≤ high then .ok n else .error (.range s!"integer `{n}`" name)
  | v => refuse name v

def int64 : Reader Int := integer "i64" (-0x8000000000000000) 0x7FFFFFFFFFFFFFFF

def int32 : Reader Int := integer "i32" (-0x80000000) 0x7FFFFFFF

def nat64 : Reader Nat := fun v => (integer "u64" 0 0xFFFFFFFFFFFFFFFF v).map Int.toNat

/-- A value, or null for none. -/
def optional {α : Type} (item : Reader α) : Reader (Option α)
  | .null => .ok none
  | v => (item v).map some

def list {α : Type} (item : Reader α) : Reader (List α)
  | .array items => items.mapM item
  | v => refuse "a sequence" v

/-- A mapping from keys to values, in the order of keys. -/
def mapping {α : Type} (item : Reader α) : Reader (List (String × α))
  | .fields fs => fs.mapM fun (k, v) => (item v).map (k, ·)
  | v => refuse "a map" v

/-- The value of a name. -/
def named {α : Type} (choices : List (String × α)) (name : String) : Except Mismatch α :=
  match choices.lookup name with
  | some a => .ok a
  | none => .error (.variant name (choices.map (·.1)))

/-- One of several names, alone or as the only key of an object whose value `bare` admits. -/
def choice {α : Type} (bare : Json → Bool) (choices : List (String × α)) : Reader α
  | .string s => named choices s
  | .fields [(name, v)] => do
    let a ← named choices name
    if bare v then .ok a else refuse "unit" v
  | .fields _ => .error (.range "map" "map with a single key")
  | v => refuse "string or map" v

end Reader

/-! ## Records -/

/-- A field of a record whose parts are collected in `σ`. -/
structure Field (σ : Type) where
  name : String
  /-- A second name. -/
  other : Option String := none
  /-- Whether an object cannot do without it. -/
  required : Bool := false
  /-- Whether an array cannot do without it. -/
  listed : Bool := required
  /-- Read the field's value into the record. -/
  set : Json → σ → Except Mismatch σ

/-- A record: what a message calls it, and its fields in order. -/
structure Record (σ : Type) where
  title : String
  fields : List (Field σ)

namespace Record

variable {σ : Type}

def field? (r : Record σ) (key : String) : Option (Field σ) :=
  r.fields.find? fun f => f.name == key || f.other == some key

/-- Read one field of an object into the record read so far; `seen` are the names of its fields. -/
def visit (r : Record σ) (at_ : List String × σ) (kv : String × Json) :
    Except Mismatch (List String × σ) :=
  match r.field? kv.1 with
  | none => .ok at_
  | some f =>
    if at_.1.contains f.name then .error (.duplicate f.name)
    else (f.set kv.2 at_.2).map (f.name :: at_.1, ·)

/-- Read the items of an array as the fields in order, `index` of them having been read. -/
def fill (r : Record σ) : List (Field σ) → List Json → Nat → σ → Except Mismatch σ
  | [], _, _, s => .ok s
  | f :: fs, [], index, s =>
    if f.listed then
      let n := r.fields.length
      let plural := if n = 1 then "" else "s"
      .error (.length index s!"struct {r.title} with {n} element{plural}")
    else fill r fs [] (index + 1) s
  | f :: fs, v :: vs, index, s => do fill r fs vs (index + 1) (← f.set v s)

/-- Read a record, `init` being the one with no field set. -/
def read (r : Record σ) (init : σ) : Reader σ
  | .fields fs => do
    let (seen, s) ← fs.foldlM r.visit ([], init)
    match r.fields.find? fun f => f.required && !seen.contains f.name with
    | some f => .error (.missing f.name)
    | none => .ok s
  | .array items => do
    let s ← r.fill r.fields items 0 init
    if r.fields.length < items.length then
      .error (.length items.length "fewer elements in array")
    else .ok s
  | v => Reader.refuse s!"struct {r.title}" v

end Record

end WorkflowLint.Json

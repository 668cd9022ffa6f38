import WorkflowLint.Number.Binary64
/-!
# JSON values

A number is an integer or a binary64 float, and the two stay apart: `1` is not `1.0`. An object
is the list of its fields in ascending order of keys, each key once; `Json.object` builds it from
fields in any order, a later field replacing an earlier one of its key.
-/

namespace WorkflowLint

inductive Json.Number where
  | int (n : Int)
  | float (x : Binary64)
  deriving DecidableEq, Inhabited

inductive Json where
  | null
  | bool (b : Bool)
  | number (n : Json.Number)
  | string (s : String)
  | array (items : List Json)
  | fields (fs : List (String × Json))
  deriving Inhabited, BEq

namespace Json

/-- Put a field where its key belongs in ascending order, in place of one with the same key. -/
def insertField {α : Type} (key : String) (value : α) : List (String × α) → List (String × α)
  | [] => [(key, value)]
  | (k, v) :: rest =>
    if key < k then (key, value) :: (k, v) :: rest
    else if key = k then (key, value) :: rest
    else (k, v) :: insertField key value rest

/-- The fields in ascending order of keys; of two with one key the later stays. -/
def sortFields {α : Type} (fs : List (String × α)) : List (String × α) :=
  fs.foldl (fun acc (k, v) => insertField k v acc) []

def object (fs : List (String × Json)) : Json :=
  .fields (sortFields fs)

def int (n : Int) : Json := .number (.int n)

def nat (n : Nat) : Json := .number (.int n)

/-- A value or null. -/
def ofOption {α : Type} (f : α → Json) : Option α → Json
  | none => .null
  | some a => f a

/-- The field of an object; nothing else has fields. -/
def get? (key : String) : Json → Option Json
  | .fields fs => fs.lookup key
  | _ => none

def isNull : Json → Bool
  | .null => true
  | _ => false

def asString? : Json → Option String
  | .string s => some s
  | _ => none

end Json

end WorkflowLint

import WorkflowLint.Json.Basic
/-!
# TOML tables

A document is built by two kinds of statement. A header opens a table at a path, an assignment
puts a value at a dotted path inside the open table. Each table remembers how it came about, on
which it depends whether it may be opened or extended again: a table is opened by a header once,
and dotted keys extend only what dotted keys made.
-/

namespace WorkflowLint.Toml

/-- How a table came about. -/
inductive Origin where
  /-- On the way to the table of a header. -/
  | implied
  /-- On the way to the value of a dotted key. -/
  | dotted
  /-- By a header of its own. -/
  | opened
  deriving DecidableEq

/-- A value, a table under construction, or an array of such tables. -/
inductive Node where
  | string (s : String)
  | integer (n : Int)
  | float
  | bool (b : Bool)
  | dateTime (text : String)
  | array (items : List Node)
  | inline (fs : List (String × Node))
  | table (origin : Origin) (fs : List (String × Node))
  | tables (before : List (List (String × Node))) (last : List (String × Node))
  deriving Inhabited

/-- The fields of a table, in the order of their first mention. -/
abbrev Fields := List (String × Node)

/-- Put a value under a key, in place of what was there. -/
def Fields.set (key : String) (v : Node) : Fields → Fields
  | [] => [(key, v)]
  | (k, w) :: rest => if k = key then (k, v) :: rest else (k, w) :: Fields.set key v rest

/-- Change the table at a path below `fs`, making the tables on the way. `byKey` tells a dotted
key from the path of a header. -/
def descend (byKey : Bool) (change : Origin → Fields → Option Fields) :
    List String → Origin → Fields → Option Fields
  | [], origin, fs => change origin fs
  | key :: path, _, fs =>
    match fs.lookup key with
    | none => do
      let made := if byKey then Origin.dotted else Origin.implied
      return Fields.set key (.table made (← descend byKey change path made [])) fs
    | some (.table origin sub) =>
      if byKey && origin = .opened then none
      else do return Fields.set key (.table origin (← descend byKey change path origin sub)) fs
    | some (.tables before last) => do
      return Fields.set key (.tables before (← descend byKey change path .opened last)) fs
    | some _ => none

/-- Put a value at a dotted path, in a place not taken. -/
def assign (path : List String) (key : String) (v : Node) (fs : Fields) : Option Fields :=
  descend true
    (fun origin fs =>
      if !path.isEmpty && origin ≠ .dotted then none
      else if (fs.lookup key).isSome then none
      else some (fs ++ [(key, v)]))
    path .opened fs

def openTable (path : List String) (key : String) (fs : Fields) : Option Fields :=
  descend false
    (fun _ fs =>
      match fs.lookup key with
      | none => some (fs ++ [(key, .table .opened [])])
      | some (.table .implied sub) => some (Fields.set key (.table .opened sub) fs)
      | some _ => none)
    path .opened fs

def openItem (path : List String) (key : String) (fs : Fields) : Option Fields :=
  descend false
    (fun _ fs =>
      match fs.lookup key with
      | none => some (fs ++ [(key, .tables [] [])])
      | some (.tables before last) => some (Fields.set key (.tables (before ++ [last]) []) fs)
      | some _ => none)
    path .opened fs

/-- Put a value at a dotted path inside the table opened at `header`. -/
def assignIn (header path : List String) (key : String) (v : Node) (fs : Fields) :
    Option Fields :=
  descend false (fun _ fs => assign path key v fs) header .opened fs

/-! ## As JSON

A layer of settings is read from either format by one reader, so a document is taken to a JSON
value. A date-time becomes an object with one field of a reserved name. -/

/-- The reserved name under which a date-time's text stands. -/
def dateTimeKey : String := "$__toml_private_datetime"

mutual

/-- The JSON value of a node; none when an integer needs more than 128 bits. -/
def Node.toJson? : Node → Option Json
  | .string s => some (.string s)
  | .integer n =>
    if -0x80000000000000000000000000000000 ≤ n ∧ n < 0x100000000000000000000000000000000 then
      some (Json.int n)
    else none
  | .float => some (.number (.float (Binary64.zero false)))
  | .bool b => some (.bool b)
  | .dateTime text => some (.fields [(dateTimeKey, .string text)])
  | .array items => do return .array (← itemsToJson? items)
  | .inline fs => do return Json.object (← fieldsToJson? fs)
  | .table _ fs => do return Json.object (← fieldsToJson? fs)
  | .tables before last => do
    let before ← tablesToJson? before
    return .array (before ++ [Json.object (← fieldsToJson? last)])

def itemsToJson? : List Node → Option (List Json)
  | [] => some []
  | v :: vs => do return (← v.toJson?) :: (← itemsToJson? vs)

def fieldsToJson? : List (String × Node) → Option (List (String × Json))
  | [] => some []
  | (k, v) :: fs => do return (k, ← v.toJson?) :: (← fieldsToJson? fs)

def tablesToJson? : List (List (String × Node)) → Option (List Json)
  | [] => some []
  | fs :: rest => do return Json.object (← fieldsToJson? fs) :: (← tablesToJson? rest)

end

end WorkflowLint.Toml

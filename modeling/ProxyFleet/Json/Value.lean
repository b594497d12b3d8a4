import ProxyFleet.Number.Binary64

/-!
# JSON values

`Json` keeps the fields of an object in the order they are written. A value that came from
`Json.sorted` (as every value read from text does) has the fields of each object in increasing
order of their names, each name once.

* `Json.insertField` : put a field into sorted fields, replacing an earlier one of that name;
* `Json.sorted` : the sorted form; of fields with one name the last counts;
* `Json.field?`, `Json.record` : look a field up, and write the fields that are present.
-/

namespace ProxyFleet

set_option autoImplicit false

/-- A number as it was written: an integer that fits 64 bits, signed or not, or a double. -/
inductive JsonNumber where
  | int (i : Int)
  | float (x : Binary64)
  deriving DecidableEq

/-- A JSON value. -/
inductive Json where
  | null
  | bool (b : Bool)
  | num (n : JsonNumber)
  | str (s : String)
  | arr (items : List Json)
  | obj (fields : List (String × Json))
  deriving BEq, Inhabited

/-- The fields of an object, or of a map kept beside typed fields. -/
abbrev JsonFields := List (String × Json)

namespace Json

/-- An integer as a value. -/
def int (i : Int) : Json := .num (.int i)

/-- A natural number as a value. -/
def nat (n : Nat) : Json := .num (.int n)

/-- A double as a value; JSON has no text for what is not finite, so that is `null`. -/
def float (x : Binary64) : Json := if x.isFinite then .num (.float x) else .null

/-- A list of texts as a value. -/
def strings (ss : List String) : Json := .arr (ss.map .str)

/-- A list of integers as a value. -/
def ints (is : List Int) : Json := .arr (is.map int)

/-- A value that may be missing, with `null` in its place. -/
def orNull {α : Type} (write : α → Json) : Option α → Json
  | none => .null
  | some a => write a

/-- The value of the first field of that name. -/
def field? (fields : JsonFields) (key : String) : Option Json :=
  (fields.find? (·.1 == key)).map (·.2)

/-- The field of that name, where the value is an object that has it. -/
def get? : Json → String → Option Json
  | .obj fields, key => field? fields key
  | _, _ => none

/-- The text of a string. -/
def str? : Json → Option String
  | .str s => some s
  | _ => none

/-- The fields of an object. -/
def obj? : Json → Option JsonFields
  | .obj fields => some fields
  | _ => none

/-- Put a field among fields sorted by name, in place of one with that name. -/
def insertField (key : String) (value : Json) : JsonFields → JsonFields
  | [] => [(key, value)]
  | (k, v) :: rest =>
    if key < k then (key, value) :: (k, v) :: rest
    else if k < key then (k, v) :: insertField key value rest
    else (key, value) :: rest

/-- Fields in sorted order; of fields with one name the last stays. -/
def sortFields (fields : JsonFields) : JsonFields :=
  fields.foldl (fun sorted (k, v) => insertField k v sorted) []

mutual

/-- The value with the fields of every object in sorted order. -/
def sorted : Json → Json
  | .arr items => .arr (sortedItems items)
  | .obj fields => .obj (sortFields (sortedFields fields))
  | .null => .null
  | .bool b => .bool b
  | .num n => .num n
  | .str s => .str s

/-- Each item in sorted form. -/
def sortedItems : List Json → List Json
  | [] => []
  | v :: rest => sorted v :: sortedItems rest

/-- Each field's value in sorted form; the fields stay where they are. -/
def sortedFields : JsonFields → JsonFields
  | [] => []
  | (k, v) :: rest => (k, sorted v) :: sortedFields rest

end

/-- An object of the fields that are present, in the order given. -/
def record (fields : List (String × Option Json)) : Json :=
  .obj (fields.filterMap fun (k, v?) => v?.map (k, ·))

/-- The name of a value's kind. -/
def kind : Json → String
  | .null => "null"
  | .bool _ => "boolean"
  | .num _ => "number"
  | .str _ => "string"
  | .arr _ => "array"
  | .obj _ => "object"

end Json

end ProxyFleet

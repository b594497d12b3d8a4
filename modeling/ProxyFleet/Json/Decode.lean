import ProxyFleet.Json.Value
import ProxyFleet.Number.Shortest
import ProxyFleet.Text.Debug

/-!
# Reading typed values from JSON

A `Decoder α` reads a value of type `α` or says why it cannot; `DecodeError.message` is the one
place that words the reasons. A record is described by its `Fields`, in the order it declares
them, and read by `Decoder.record`:

* fields it does not know are passed over, or kept by `Decoder.extended`;
* of several fields that cannot be read the first in the object's order is reported, and any of
  them before a missing one;
* missing fields are reported in declared order;
* a record is also read from an array that lists its fields in declared order.
-/

namespace ProxyFleet

set_option autoImplicit false

/-- Why a JSON value was refused. -/
inductive DecodeError where
  | wrongType (found : Json) (expected : String)
  | outOfRange (value : Int) (expected : String)
  | missingField (name : String)
  | duplicateField (name : String)
  | wrongLength (length : Nat) (expected : String)
  | unknownVariant (found : String) (known : List String)
  | notOneVariant
  | custom (text : String)
  deriving Inhabited

/-- Reads a typed value. -/
abbrev Decoder (α : Type) := Json → Except DecodeError α

namespace DecodeError

/-- How a value that was found is named. -/
def found : Json → String
  | .null => "null"
  | .bool b => s!"boolean \x60{b}\x60"
  | .num (.int i) => s!"integer \x60{i}\x60"
  | .num (.float x) => s!"floating point \x60{x.jsonText}\x60"
  | .str s => s!"string {Text.quoted s}"
  | .arr _ => "sequence"
  | .obj _ => "map"

/-- The choices of a message, each between grave accents. -/
def choices (known : List String) : String :=
  let marked := known.map fun k => s!"\x60{k}\x60"
  match marked with
  | [] => "there are no variants"
  | [a] => s!"expected {a}"
  | [a, b] => s!"expected {a} or {b}"
  | _ => "expected one of " ++ ", ".intercalate marked

/-- The text of a refusal. -/
def message : DecodeError → String
  | wrongType v expected => s!"invalid type: {found v}, expected {expected}"
  | outOfRange i expected => s!"invalid value: integer \x60{i}\x60, expected {expected}"
  | missingField name => s!"missing field \x60{name}\x60"
  | duplicateField name => s!"duplicate field \x60{name}\x60"
  | wrongLength n expected => s!"invalid length {n}, expected {expected}"
  | unknownVariant v known => s!"unknown variant \x60{v}\x60, {choices known}"
  | notOneVariant => "invalid value: map, expected map with a single key"
  | custom text => text

end DecodeError

namespace Decoder

/-! ## Single values -/

/-- Any value. -/
def any : Decoder Json := fun v => .ok v

/-- A text. -/
def text : Decoder String
  | .str s => .ok s
  | v => .error (.wrongType v "a string")

/-- A truth value. -/
def bool : Decoder Bool
  | .bool b => .ok b
  | v => .error (.wrongType v "a boolean")

/-- An integer between two bounds, named for messages. -/
def integer (low high : Int) (expected : String) : Decoder Int
  | .num (.int i) => if low ≤ i ∧ i ≤ high then .ok i else .error (.outOfRange i expected)
  | v => .error (.wrongType v expected)

/-- A signed integer of 64 bits. -/
def i64 : Decoder Int := integer (-(Nat.pow 2 63)) (Nat.pow 2 63 - 1) "i64"

/-- An unsigned integer of 16 bits. -/
def u16 : Decoder UInt16 := fun v => (integer 0 65535 "u16" v).map fun i => UInt16.ofNat i.toNat

/-- An unsigned integer of 32 bits. -/
def u32 : Decoder UInt32 := fun v =>
  (integer 0 (Nat.pow 2 32 - 1) "u32" v).map fun i => UInt32.ofNat i.toNat

/-- An unsigned integer of 64 bits. -/
def u64 : Decoder UInt64 := fun v =>
  (integer 0 (Nat.pow 2 64 - 1) "u64" v).map fun i => UInt64.ofNat i.toNat

/-- A double; an integer is rounded to one. -/
def f64 : Decoder Binary64
  | .num (.int i) => .ok (Binary64.ofInt i)
  | .num (.float x) => .ok x
  | v => .error (.wrongType v "f64")

/-- A value that may be `null`. -/
def nullable {α : Type} (d : Decoder α) : Decoder (Option α)
  | .null => .ok none
  | v => (d v).map some

/-- A list of values. -/
def list {α : Type} (d : Decoder α) : Decoder (List α)
  | .arr items => items.mapM d
  | v => .error (.wrongType v "a sequence")

/-- An object with fields of any name. -/
def map {α : Type} (d : Decoder α) : Decoder (List (String × α))
  | .obj fields => fields.mapM fun (k, v) => (d v).map (k, ·)
  | v => .error (.wrongType v "a map")

/-- The name of one of several variants; also written as an object with that name alone and no
content. -/
def variant {α : Type} (known : List (String × α)) : Decoder α
  | .str s => pick s
  | .obj [(k, v)] => do
    let a ← pick k
    match v with
    | .null => .ok a
    | v => .error (.wrongType v "unit")
  | .obj _ => .error .notOneVariant
  | v => .error (.wrongType v "string or map")
where
  /-- The variant of a name. -/
  pick (s : String) : Except DecodeError α :=
    match known.find? (·.1 == s) with
    | some (_, a) => .ok a
    | none => .error (.unknownVariant s (known.map (·.1)))

end Decoder

/-! ## Records -/

/-- Where the fields of a record come from, and how a missing one is reported. -/
structure FieldSource where
  get? : String → Option Json
  missing : String → DecodeError
  positional : Bool

/-- The fields of a record in declared order, and how to build the record from them. -/
structure Fields (α : Type) where
  /-- Each field's name and why its value would be refused, if it would. -/
  known : List (String × (Json → Option DecodeError))
  /-- The record, from values that are all readable. -/
  build : FieldSource → Except DecodeError α

namespace Fields

/-- Why a decoder refuses a value. -/
def refusal {α : Type} (d : Decoder α) (v : Json) : Option DecodeError :=
  match d v with
  | .ok _ => none
  | .error e => some e

instance : Functor Fields where
  map f a := { known := a.known, build := fun s => f <$> a.build s }

instance : Seq Fields where
  seq f a :=
    let a := a ()
    { known := f.known ++ a.known, build := fun s => f.build s >>= fun g => g <$> a.build s }

/-- A field that has to be present. -/
def required {α : Type} (name : String) (d : Decoder α) : Fields α where
  known := [(name, refusal d)]
  build s := match s.get? name with
    | some v => d v
    | none => .error (s.missing name)

/-- A field with a value for where it is absent. -/
def default {α : Type} (name : String) (d : Decoder α) (absent : α) : Fields α where
  known := [(name, refusal d)]
  build s := match s.get? name with
    | some v => d v
    | none => .ok absent

/-- A field that may be absent or `null`. -/
def optional {α : Type} (name : String) (d : Decoder α) : Fields (Option α) :=
  default name d.nullable none

/-- A field that may be `null`, or absent from an object; in an array its place has to be there. -/
def placed {α : Type} (name : String) (d : Decoder α) : Fields (Option α) where
  known := [(name, refusal d.nullable)]
  build s := match s.get? name with
    | some v => d.nullable v
    | none => if s.positional then .error (s.missing name) else .ok none

/-- The names in declared order. -/
def names {α : Type} (f : Fields α) : List String := f.known.map (·.1)

/-- Whether a field of that name is known. -/
def knows {α : Type} (f : Fields α) (name : String) : Bool := f.known.any (·.1 == name)

/-- The first fault among given fields: a known name a second time, or a value that is refused. -/
def firstFault {α : Type} (f : Fields α) : JsonFields → List String → Option DecodeError
  | [], _ => none
  | (k, v) :: rest, seen =>
    match f.known.find? (·.1 == k) with
    | none => firstFault f rest seen
    | some (_, refuses) =>
      if seen.contains k then some (.duplicateField k)
      else match refuses v with
        | some e => some e
        | none => firstFault f rest (k :: seen)

/-- The record of an object's fields. -/
def ofObject {α : Type} (f : Fields α) (fields : JsonFields) : Except DecodeError α :=
  match f.firstFault fields [] with
  | some e => .error e
  | none => f.build { get? := Json.field? fields, missing := .missingField, positional := false }

/-- How a record of some length is named. -/
def named {α : Type} (f : Fields α) (name : String) : String :=
  let n := f.known.length
  let unit := if n = 1 then "element" else "elements"
  s!"struct {name} with {n} {unit}"

/-- How an array is named that is longer than its record. -/
def tooMany : String := "fewer elements in array"

/-- The record of an array's items. -/
def ofArray {α : Type} (f : Fields α) (name : String) (items : List Json) : Except DecodeError α := do
  let fields := f.names.zip items
  if let some e := f.firstFault fields [] then throw e
  let missing (key : String) := DecodeError.wrongLength (f.names.idxOf key) (f.named name)
  let record ← f.build { get? := Json.field? fields, missing, positional := true }
  if f.known.length < items.length then
    throw (.wrongLength items.length tooMany)
  return record

end Fields

namespace Decoder

/-- A record: an object, or an array of its fields in declared order. -/
def record {α : Type} (name : String) (f : Fields α) : Decoder α
  | .obj fields => f.ofObject fields
  | .arr items => f.ofArray name items
  | v => .error (.wrongType v s!"struct {name}")

/-- A record that keeps the fields it does not know, in their order; an object only. -/
def extended {α : Type} (name : String) (f : Fields α) : Decoder (α × JsonFields)
  | .obj fields => do
    let record ← f.ofObject fields
    return (record, fields.filter fun (k, _) => !f.knows k)
  | v => .error (.wrongType v s!"struct {name}")

end Decoder

end ProxyFleet

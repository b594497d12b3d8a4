import ProxyFleet.Json.Reader
import ProxyFleet.Protocol.Error
import ProxyFleet.Time.Instant

/-!
# Failures of the store

* `StoreError.message` : the text of a failure;
* `JsonColumn.read` : a typed value from a column that holds a document;
* `timeColumn`, `timeColumn?` : moments from columns that hold date and time as text.
-/

namespace ProxyFleet

set_option autoImplicit false

/-- What is wrong with a stored row. -/
inductive Corruption where
  | portOutOfRange (value : Int)
  | unknownPurpose (name : String)
  | unknownStatus (name : String)
  | unknownAction (name : String)
  | params (node : Int) (error : ParamError)
  | day (text : String) (error : Day.ReadError)

/-- The text on a row that is wrong. -/
def Corruption.message : Corruption → String
  | portOutOfRange i => s!"port {i} out of range"
  | unknownPurpose s => s!"unknown port purpose: {s}"
  | unknownStatus s => s!"unknown port status: {s}"
  | unknownAction s => s!"unknown history action: {s}"
  | params node e => s!"node {node}: {e.message}"
  | day s e => s!"bad record date '{s}': {e.message}"

/-- Why a statement was refused. -/
inductive Refusal where
  | notUnique (column : String)
  | isNull (column : String)
  | unknownTable (name : String)
  | unknownColumn (name : String)

/-- The text on a statement that was refused. -/
def Refusal.message : Refusal → String
  | notUnique c => s!"(code: 2067) UNIQUE constraint failed: {c}"
  | isNull c => s!"(code: 1299) NOT NULL constraint failed: {c}"
  | unknownTable t => s!"(code: 1) no such table: {t}"
  | unknownColumn c => s!"(code: 1) no such column: {c}"

/-- A failure of the store. -/
inductive StoreError where
  | database (refusal : Refusal)
  /-- A column that should hold a document holds none, or one that cannot be read. -/
  | serialization (reason : Option DecodeError)
  | corrupt (corruption : Corruption)
  | notFound (what : String)

/-- The text of a failure. -/
def StoreError.message : StoreError → String
  | database refusal => s!"Database error: error returned from database: {refusal.message}"
  | serialization none => "Serialization error: expected value"
  | serialization (some reason) => s!"Serialization error: {reason.message}"
  | corrupt corruption => s!"Corrupt row: {corruption.message}"
  | notFound what => s!"{what} not found"

/-! ## Columns -/

/-- A column that holds the text of a document: the document, unless the text is none. -/
abbrev JsonColumn := Option Json

/-- The column that holds a text. -/
def JsonColumn.ofText (s : String) : JsonColumn := Json.parseRaw? s

/-- The typed value that a column holds. -/
def JsonColumn.read {α : Type} (column : JsonColumn) (d : Decoder α) : Except StoreError α :=
  match column with
  | none => .error (.serialization none)
  | some v => (d v).mapError fun e => .serialization (some e)

/-- The moment that a column holds; a text that is none counts as the present. -/
def timeColumn (now : Instant) (s : String) : Instant := (Instant.ofText? s).getD now

/-- The moment that a column holds, if it holds one. -/
def timeColumn? (s : Option String) : Option Instant := s.bind Instant.ofText?

/-- The port that a column holds. -/
def portColumn (i : Int) : Except StoreError UInt16 :=
  if 0 ≤ i ∧ i ≤ 65535 then .ok (UInt16.ofNat i.toNat) else .error (.corrupt (.portOutOfRange i))

end ProxyFleet

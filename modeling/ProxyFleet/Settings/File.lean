import ProxyFleet.Settings.Codec
import ProxyFleet.Toml.Document

/-!
# The configuration file

`Settings.load` reads settings from the bytes of a configuration file. Where there is no file every
setting has its default.
-/

namespace ProxyFleet

set_option autoImplicit false

/-- Why a configuration file was refused. -/
inductive LoadError where
  /-- It is no text. -/
  | unreadable
  | malformed
  | invalid (error : SettingsError)

/-- The text on a configuration file that was refused. -/
def LoadError.message : LoadError → String
  | unreadable => "Failed to read config file: stream did not contain valid UTF-8"
  | malformed => "Failed to parse config"
  | invalid e => s!"Invalid configuration: {e.message}"

namespace Settings

/-- The sections and how many settings each has. -/
def sections : List (String × Nat) :=
  [("ports", 4), ("api", 2), ("database", 1), ("node", 5), ("generator", 4), ("subscription", 1)]

/-- A section may be written as an array of its settings; what is beyond them counts for nothing. -/
def trimSection (field : String × Json) : String × Json :=
  match sections.find? (·.1 == field.1), field.2 with
  | some (_, n), .arr items => (field.1, .arr (items.take n))
  | _, _ => field

/-- The settings that a text describes, unless they cannot work. -/
def ofText (text : String) : Except LoadError Settings := do
  let some (.obj fields) := Toml.parse? text | throw .malformed
  let .ok settings := Settings.decoder (.obj (fields.map trimSection)) | throw .malformed
  settings.check.mapError .invalid
  return settings

/-- The settings of a configuration file that has these bytes, if it is there. -/
def load (file : Option ByteArray) : Except LoadError Settings :=
  match file with
  | none => .ok {}
  | some bytes =>
    match String.fromUTF8? bytes with
    | none => .error .unreadable
    | some text => ofText text

end Settings

end ProxyFleet

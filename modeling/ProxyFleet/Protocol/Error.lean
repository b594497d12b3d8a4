import ProxyFleet.Json.Decode
import ProxyFleet.Json.Printer

/-!
# Refused parameters

`ParamError` names the protocol, the parameter and the cause; `ParamCause.detail?` words the causes
that are more than "expected this, got that".
-/

namespace ProxyFleet

set_option autoImplicit false

/-- Why a parameter was refused. -/
inductive ParamCause where
  | mismatch (expected actual : String)
  | missing
  | empty
  | unsupportedProtocol (name : String)
  | notNatural (n : JsonNumber)
  | aboveSixteenBits (n : Nat)
  | bandwidthTooLarge
  | entryNotText (kind : String)
  | publicKeyMissing
  | keyLength (method : String) (size found : Nat)
  | keyNotBase64 (method : String) (size : Nat)
  | malformed (reason : DecodeError)

/-- A parameter that was refused. -/
structure ParamError where
  protocol : String
  param : String
  cause : ParamCause

namespace ParamCause

/-- The explanation of a cause, where it has one of its own. -/
def detail? : ParamCause → Option String
  | mismatch _ _ => none
  | missing => some "required parameter is missing"
  | empty => some "must not be empty"
  | unsupportedProtocol name => some s!"unsupported protocol: {name}"
  | notNatural n => some s!"must be a non-negative integer, got {String.ofList (Json.numberChars n)}"
  | aboveSixteenBits n => some s!"must be between 0 and 65535, got {n}"
  | bandwidthTooLarge => some "bandwidth is too large"
  | entryNotText kind => some s!"entries must be strings, got {kind}"
  | publicKeyMissing => some "public_key is required when reality is enabled"
  | keyLength method size found => some s!"{method} needs a {size}-byte key, got {found} bytes"
  | keyNotBase64 method size => some s!"{method} needs a base64 encoded {size}-byte key"
  | malformed reason => some s!"malformed canonical params: {reason.message}"

/-- What was expected and what was found, where that is the cause. -/
def expectation? : ParamCause → Option (String × String)
  | mismatch expected actual => some (expected, actual)
  | _ => none

end ParamCause

namespace ParamError

/-- The error of a protocol that is not known. -/
def unsupported (name : String) : ParamError := ⟨name, "protocol", .unsupportedProtocol name⟩

/-- The text of an error. -/
def message (e : ParamError) : String :=
  let reason := match e.cause.detail?, e.cause.expectation? with
    | some detail, _ => detail
    | none, some (expected, actual) => s!"expected {expected}, got {actual}"
    | none, none => "expected ?, got ?"
  s!"protocol {e.protocol} parameter error for '{e.param}': {reason}"

end ParamError

end ProxyFleet

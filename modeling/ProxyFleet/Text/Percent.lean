import ProxyFleet.Text.Base64

/-!
# Percent encoding

`Text.percentEncode` keeps the unreserved characters (ASCII letters and digits, hyphen, underscore,
point and tilde) and writes every other byte of the UTF-8 form as a percent sign with two
hexadecimal digits. `Text.percentDecode?` reads such bytes; a percent sign without two hexadecimal
digits stands for itself.
-/

namespace ProxyFleet.Text

set_option autoImplicit false

/-- The code of a character that stands for itself. -/
def isUnreserved (b : UInt8) : Bool :=
  let c := Char.ofNat b.toNat
  b.toNat < 128 && (c.isAlphanum || c == '-' || c == '_' || c == '.' || c == '~')

/-- One hexadecimal digit in upper case. -/
def upperHexDigit (n : Nat) : Char := (Nat.digitChar (n % 16)).toUpper

/-- One byte. -/
def percentByte (b : UInt8) : List Char :=
  if isUnreserved b then [Char.ofNat b.toNat]
  else ['%', upperHexDigit (b.toNat / 16), upperHexDigit b.toNat]

/-- A text in percent encoding. -/
def percentEncode (s : String) : String := String.ofList ((utf8 s).flatMap percentByte)

/-- The value of a byte that is a hexadecimal digit. -/
def hexByte? (b : UInt8) : Option Nat :=
  let c := Char.ofNat b.toNat
  if c.isDigit then some (b.toNat - '0'.toNat)
  else if 'a' ≤ c ∧ c ≤ 'f' then some (b.toNat - 'a'.toNat + 10)
  else if 'A' ≤ c ∧ c ≤ 'F' then some (b.toNat - 'A'.toNat + 10)
  else none

/-- Bytes with the percent signs resolved. -/
def percentDecodeBytes : List UInt8 → List UInt8
  | [] => []
  | b :: high :: low :: rest =>
    match b == 37, hexByte? high, hexByte? low with
    | true, some h, some l => UInt8.ofNat (h * 16 + l) :: percentDecodeBytes rest
    | _, _, _ => b :: percentDecodeBytes (high :: low :: rest)
  | b :: rest => b :: percentDecodeBytes rest

/-- The text that a percent encoding stands for, if its bytes are one. -/
def percentDecode? (s : String) : Option String :=
  String.fromUTF8? ⟨(percentDecodeBytes (utf8 s)).toArray⟩

end ProxyFleet.Text

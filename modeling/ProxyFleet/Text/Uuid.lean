import ProxyFleet.Text.Letters

/-!
# UUID text

* `Text.isUuid` recognises the canonical form of a UUID: hexadecimal groups of 8, 4, 4, 4 and 12
  digits with hyphens between them;
* `Text.randomUuid` : the form of 16 random bytes.
-/

namespace ProxyFleet.Text

set_option autoImplicit false

/-- A hexadecimal digit in either case. -/
def isHexDigit (c : Char) : Bool := c.isDigit || ('a' ≤ c && c ≤ 'f') || ('A' ≤ c && c ≤ 'F')

/-- The canonical form of a UUID. -/
def isUuid (s : String) : Bool :=
  let groups := splitChars '-' s.toList
  groups.map List.length == [8, 4, 4, 4, 12] && groups.all (·.all isHexDigit)

/-- The two hexadecimal digits of a byte. -/
def hexByte (b : UInt8) : List Char := [Nat.digitChar (b.toNat / 16), Nat.digitChar (b.toNat % 16)]

/-- The UUID of 16 random bytes, six bits of which say that it is random. -/
def randomUuid (bytes : List UInt8) : String :=
  let marked := (bytes.modify 6 fun b => (b &&& 0x0f) ||| 0x40).modify 8 fun b => (b &&& 0x3f) ||| 0x80
  let group (start count : Nat) := String.ofList (((marked.drop start).take count).flatMap hexByte)
  "-".intercalate [group 0 4, group 4 2, group 6 2, group 8 2, group 10 6]

end ProxyFleet.Text

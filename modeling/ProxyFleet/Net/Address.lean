/-!
# IP address literals

`Net.isIPv4` accepts four decimal octets without leading zeros. `Net.isIPv6` accepts eight groups
of one to four hexadecimal digits, of which the last two may be written as an IPv4 address, and
one run of zero groups as a double colon. Neither takes a zone, a port or brackets.
-/

namespace ProxyFleet.Net

set_option autoImplicit false

/-- A decimal number of one to three digits below 256 at the front of a text, without a leading
zero; the rest comes back. -/
def readOctet? (cs : List Char) : Option (List Char) :=
  let digits := cs.takeWhile Char.isDigit
  let value := digits.foldl (fun n c => n * 10 + (c.toNat - '0'.toNat)) 0
  if digits.isEmpty || 3 < digits.length || 255 < value then none
  else if digits.head? == some '0' && 1 < digits.length then none
  else some (cs.drop digits.length)

/-- The rest of a text after the given character. -/
def readChar? (c : Char) : List Char → Option (List Char)
  | d :: rest => if d = c then some rest else none
  | [] => none

/-- Four octets with points between them at the front of a text. -/
def readIPv4? (cs : List Char) : Option (List Char) := do
  let cs ← readOctet? cs
  let cs ← readOctet? (← readChar? '.' cs)
  let cs ← readOctet? (← readChar? '.' cs)
  readOctet? (← readChar? '.' cs)

/-- A hexadecimal digit. -/
def isHex (c : Char) : Bool := c.isDigit || ('a' ≤ c && c ≤ 'f') || ('A' ≤ c && c ≤ 'F')

/-- One to four hexadecimal digits at the front of a text; a fifth is not passed over. -/
def readGroup? (cs : List Char) : Option (List Char) :=
  let digits := cs.takeWhile isHex
  if digits.isEmpty || 4 < digits.length then none else some (cs.drop digits.length)

/-- Groups with colons between them: how many of the `room` places they fill, whether the last is
an IPv4 address, which fills two, and the rest of the text. The text from a colon on that no group
follows is left over. -/
def readGroups (first : Bool) : (room : Nat) → List Char → Nat × Bool × List Char
  | 0, cs => (0, false, cs)
  | room + 1, cs =>
    match if first then some cs else readChar? ':' cs with
    | none => (0, false, cs)
    | some start =>
      match if 0 < room then readIPv4? start else none with
      | some rest => (2, true, rest)
      | none =>
        match readGroup? start with
        | none => (0, false, cs)
        | some rest =>
          let (count, v4, after) := readGroups false room rest
          (count + 1, v4, after)

/-- An IPv4 literal. -/
def isIPv4 (s : String) : Bool := readIPv4? s.toList == some []

/-- An IPv6 literal. -/
def isIPv6 (s : String) : Bool :=
  let (front, v4, rest) := readGroups true 8 s.toList
  if front = 8 then rest.isEmpty
  else if v4 then false
  else match rest with
    | ':' :: ':' :: rest =>
      let (_, _, after) := readGroups true (7 - front) rest
      after.isEmpty
    | _ => false

/-- An IP address of either family. -/
def isIPAddress (s : String) : Bool := isIPv4 s || isIPv6 s

end ProxyFleet.Net

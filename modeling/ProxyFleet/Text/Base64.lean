/-!
# Base64

Three bytes are four characters of six bits each. `Base64.encode` writes bytes and
`Base64.decode?` reads exactly what `encode` writes: padding has to be complete where the alphabet
asks for it, and the bits that a last group leaves over are zero.

* `Base64.standard` : `+` and `/`, padded;
* `Base64.urlSafe` : `-` and `_`, without padding.
-/

namespace ProxyFleet

set_option autoImplicit false

/-- The two characters in which base64 dialects differ, and whether a last group is filled up. -/
structure Base64 where
  char62 : Char
  char63 : Char
  padded : Bool

namespace Base64

/-- The standard alphabet with padding. -/
def standard : Base64 := ⟨'+', '/', true⟩

/-- The alphabet for file names and addresses, without padding. -/
def urlSafe : Base64 := ⟨'-', '_', false⟩

/-- The character of a number below 64. -/
def charOf (a : Base64) (n : Nat) : Char :=
  if n < 26 then Char.ofNat ('A'.toNat + n)
  else if n < 52 then Char.ofNat ('a'.toNat + (n - 26))
  else if n < 62 then Char.ofNat ('0'.toNat + (n - 52))
  else if n = 62 then a.char62
  else a.char63

/-- The number of a character of the alphabet. -/
def valueOf? (a : Base64) (c : Char) : Option Nat :=
  if 'A' ≤ c ∧ c ≤ 'Z' then some (c.toNat - 'A'.toNat)
  else if 'a' ≤ c ∧ c ≤ 'z' then some (c.toNat - 'a'.toNat + 26)
  else if '0' ≤ c ∧ c ≤ '9' then some (c.toNat - '0'.toNat + 52)
  else if c = a.char62 then some 62
  else if c = a.char63 then some 63
  else none

/-- The padding of a last group that lacks `n` characters. -/
def padding (a : Base64) (n : Nat) : List Char := if a.padded then List.replicate n '=' else []

/-- The characters of bytes. -/
def encode (a : Base64) : List UInt8 → List Char
  | [] => []
  | [x] =>
    [a.charOf (x.toNat / 4), a.charOf (x.toNat % 4 * 16)] ++ a.padding 2
  | [x, y] =>
    [a.charOf (x.toNat / 4), a.charOf (x.toNat % 4 * 16 + y.toNat / 16),
     a.charOf (y.toNat % 16 * 4)] ++ a.padding 1
  | x :: y :: z :: rest =>
    a.charOf (x.toNat / 4) :: a.charOf (x.toNat % 4 * 16 + y.toNat / 16) ::
      a.charOf (y.toNat % 16 * 4 + z.toNat / 64) :: a.charOf (z.toNat % 64) :: encode a rest

/-- One byte from two characters, the second of which leaves four zero bits over. -/
def decodeTwo? (a : Base64) (p q : Char) : Option (List UInt8) :=
  match a.valueOf? p, a.valueOf? q with
  | some p, some q => if q % 16 = 0 then some [UInt8.ofNat (p * 4 + q / 16)] else none
  | _, _ => none

/-- Two bytes from three characters, the last of which leaves two zero bits over. -/
def decodeThree? (a : Base64) (p q r : Char) : Option (List UInt8) :=
  match a.valueOf? p, a.valueOf? q, a.valueOf? r with
  | some p, some q, some r =>
    if r % 4 = 0 then
      some [UInt8.ofNat (p * 4 + q / 16), UInt8.ofNat (q % 16 * 16 + r / 4)]
    else none
  | _, _, _ => none

/-- Three bytes from four characters. -/
def decodeFour? (a : Base64) (p q r s : Char) : Option (List UInt8) :=
  match a.valueOf? p, a.valueOf? q, a.valueOf? r, a.valueOf? s with
  | some p, some q, some r, some s =>
    some [UInt8.ofNat (p * 4 + q / 16), UInt8.ofNat (q % 16 * 16 + r / 4),
      UInt8.ofNat (r % 4 * 64 + s)]
  | _, _, _, _ => none

/-- The last group of a text. -/
def decodeLast? (a : Base64) : List Char → Option (List UInt8)
  | [] => some []
  | [p, q] => if a.padded then none else a.decodeTwo? p q
  | [p, q, r] => if a.padded then none else a.decodeThree? p q r
  | [p, q, r, s] =>
    if a.padded ∧ s = '=' then
      if r = '=' then a.decodeTwo? p q else a.decodeThree? p q r
    else a.decodeFour? p q r s
  | _ => none

/-- The bytes that `encode` writes as the text, if there are any. -/
def decode? (a : Base64) : List Char → Option (List UInt8)
  | p :: q :: r :: s :: c :: rest =>
    match a.decodeFour? p q r s, decode? a (c :: rest) with
    | some front, some back => some (front ++ back)
    | _, _ => none
  | last => a.decodeLast? last

end Base64

/-- The bytes of a text in UTF-8. -/
def Text.utf8 (s : String) : List UInt8 := s.toUTF8.data.toList

/-- The text of bytes in the given base64 dialect. -/
def Base64.text (a : Base64) (bytes : List UInt8) : String := String.ofList (a.encode bytes)

end ProxyFleet

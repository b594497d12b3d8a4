/-!
# Integers as text

`Text.natOf?` and `Text.intOf?` read decimal digits with an optional sign: an unsigned number may
carry a plus, a signed one either sign. Separators, blanks and other digits than ASCII ones are
refused.
-/

namespace ProxyFleet.Text

set_option autoImplicit false

/-- The number of a list of ASCII digits that is not empty. -/
def digitsOf? (cs : List Char) : Option Nat :=
  if cs.isEmpty || !cs.all Char.isDigit then none
  else some (cs.foldl (fun n c => n * 10 + (c.toNat - '0'.toNat)) 0)

/-- An unsigned number of at most `max`. -/
def natOf? (max : Nat) (s : String) : Option Nat :=
  let digits := match s.toList with
    | '+' :: rest => rest
    | cs => cs
  (digitsOf? digits).filter (· ≤ max)

/-- A signed number between `low` and `high`. -/
def intOf? (low high : Int) (s : String) : Option Int :=
  let number : Option Int := match s.toList with
    | '-' :: rest => (digitsOf? rest).map fun n => -(n : Int)
    | '+' :: rest => (digitsOf? rest).map fun n => (n : Int)
    | cs => (digitsOf? cs).map fun n => (n : Int)
  number.filter fun i => low ≤ i && i ≤ high

/-- An unsigned integer of 64 bits. -/
def u64? : String → Option Nat := natOf? (Nat.pow 2 64 - 1)

/-- An unsigned integer of 16 bits. -/
def u16? : String → Option Nat := natOf? 65535

/-- A signed integer of 64 bits. -/
def i64? : String → Option Int := intOf? (-(Nat.pow 2 63)) (Nat.pow 2 63 - 1)

end ProxyFleet.Text

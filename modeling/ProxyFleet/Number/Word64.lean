import ProxyFleet.Number.Binary64

/-!
# Signed integers of 64 bits

* `Word64.ofInt?` : an integer, unless it is beyond 64 bits;
* `Word64.wrap` : the integer of 64 bits that agrees with an integer modulo `2 ^ 64`;
* `Word64.clamp`, `Word64.ofDouble` : the nearest integer of 64 bits to an integer or to a double.
-/

namespace ProxyFleet.Word64

set_option autoImplicit false

/-- The least integer of 64 bits. -/
def least : Int := -(Nat.pow 2 63)

/-- The greatest integer of 64 bits. -/
def greatest : Int := Nat.pow 2 63 - 1

/-- An integer, unless it is beyond 64 bits. A program that computes one that is beyond them stops. -/
def ofInt? (i : Int) : Option Int := if least ≤ i ∧ i ≤ greatest then some i else none

/-- The integer of 64 bits that agrees with an integer modulo `2 ^ 64`. -/
def wrap (i : Int) : Int := i.bmod (Nat.pow 2 64)

/-- The nearest integer of 64 bits. -/
def clamp (i : Int) : Int := max least (min greatest i)

/-- A double rounded to an integer of 64 bits, a half away from zero. What is beyond them becomes
the nearest of them, and a NaN becomes zero. -/
def ofDouble (x : Binary64) : Int :=
  if x.isNaN then 0
  else if !x.isFinite then (if x.isNegative then least else greatest)
  else clamp x.roundToInt

end ProxyFleet.Word64

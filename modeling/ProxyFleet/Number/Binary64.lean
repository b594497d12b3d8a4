/-!
# Binary floating point with 64 bits

A `Binary64` is the bit pattern of an IEEE 754 double, so equality is decidable and every
operation below is exact integer arithmetic followed by one rounding.

* `Binary64.magnitude` : a finite number is `m * 2 ^ q` up to sign;
* `Binary64.ofRatio` : the double nearest to a fraction, ties to even;
* `Binary64.mul`, `Binary64.ofInt` : arithmetic through `ofRatio`;
* `Binary64.roundToInt`, `Binary64.truncToNat` : back to the integers.
-/

namespace ProxyFleet

set_option autoImplicit false

/-- An IEEE 754 double by its bit pattern: sign, eleven exponent bits, 52 fraction bits. -/
structure Binary64 where
  bits : UInt64
  deriving DecidableEq, Inhabited

namespace Binary64

/-- The sign bit is set. -/
def isNegative (x : Binary64) : Bool := Nat.pow 2 63 ≤ x.bits.toNat

/-- The bits without the sign. -/
def absBits (x : Binary64) : Nat := x.bits.toNat % Nat.pow 2 63

/-- The eleven exponent bits. -/
def exponentField (x : Binary64) : Nat := x.absBits / Nat.pow 2 52

/-- The 52 fraction bits. -/
def fractionField (x : Binary64) : Nat := x.absBits % Nat.pow 2 52

/-- Neither an infinity nor a NaN. -/
def isFinite (x : Binary64) : Bool := x.exponentField < 2047

/-- A NaN: the exponent bits are all ones and the fraction is not zero. -/
def isNaN (x : Binary64) : Bool := x.exponentField == 2047 && x.fractionField != 0

/-- Either of the two zeros. -/
def isZero (x : Binary64) : Bool := x.absBits == 0

/-- Strictly above zero; false of a NaN. -/
def isPositive (x : Binary64) : Bool := !x.isNegative && !x.isZero && !x.isNaN

/-- A double from its sign and its remaining bits. -/
def ofSignAndBits (negative : Bool) (abs : Nat) : Binary64 :=
  ⟨UInt64.ofNat (if negative then Nat.pow 2 63 + abs else abs)⟩

/-- Positive zero. -/
def zero : Binary64 := ⟨0⟩

/-- The number one. -/
def one : Binary64 := ⟨0x3ff0000000000000⟩

/-- An infinity of the given sign. -/
def infinity (negative : Bool) : Binary64 := ofSignAndBits negative (2047 * Nat.pow 2 52)

/-- The quiet NaN. -/
def nan : Binary64 := ⟨0x7ff8000000000000⟩

/-- A finite number is `m * 2 ^ q` up to sign; the answer is `(m, q)`. -/
def magnitude (x : Binary64) : Nat × Int :=
  if x.exponentField = 0 then (x.fractionField, -1074)
  else (x.fractionField + Nat.pow 2 52, (x.exponentField : Int) - 1075)

/-- The absolute value of a finite number as a fraction. -/
def ratio (x : Binary64) : Nat × Nat :=
  let (m, q) := x.magnitude
  (m * Nat.pow 2 q.toNat, Nat.pow 2 (-q).toNat)

/-- The integer nearest to `num / den`; a tie goes to the even neighbour. -/
def roundEven (num den : Nat) : Nat :=
  let floor := num / den
  let rest := num % den
  if 2 * rest < den then floor
  else if den < 2 * rest then floor + 1
  else floor + floor % 2

/-- The integer nearest to `num / den`; a tie goes away from zero. -/
def roundAway (num den : Nat) : Nat := (2 * num + den) / (2 * den)

/-- The bits of the double nearest to the positive fraction `num / den`; a tie goes to the even
neighbour. The scale is the one that leaves 53 binary digits before the point, or the smallest
there is; a carry into the next scale is what adding to the exponent field gives. -/
def nearestBits (num den : Nat) : Nat :=
  let scaled (q : Int) : Nat × Nat := (num * Nat.pow 2 (-q).toNat, den * Nat.pow 2 q.toNat)
  let guess : Int := (num.log2 : Int) - den.log2 - 52
  let q := max (if (scaled guess).1 < Nat.pow 2 52 * (scaled guess).2 then guess - 1 else guess) (-1074)
  min ((q + 1074).toNat * Nat.pow 2 52 + roundEven (scaled q).1 (scaled q).2) (2047 * Nat.pow 2 52)

/-- The double nearest to `num / den` with the given sign. -/
def ofRatio (negative : Bool) (num den : Nat) : Binary64 :=
  ofSignAndBits negative (if num = 0 then 0 else nearestBits num den)

/-- The double nearest to an integer. -/
def ofInt (i : Int) : Binary64 := ofRatio (i < 0) i.natAbs 1

/-- The double nearest to a natural number. -/
def ofNat (n : Nat) : Binary64 := ofRatio false n 1

/-- Change of sign. -/
def neg (x : Binary64) : Binary64 := ofSignAndBits (!x.isNegative) x.absBits

/-- The product, rounded once. -/
def mul (x y : Binary64) : Binary64 :=
  let negative := x.isNegative != y.isNegative
  if x.isNaN || y.isNaN then nan
  else if !x.isFinite || !y.isFinite then
    if x.isZero || y.isZero then nan else infinity negative
  else
    ofRatio negative (x.ratio.1 * y.ratio.1) (x.ratio.2 * y.ratio.2)

/-- The quotient of two finite numbers with a divisor other than zero, rounded once. -/
def div (x y : Binary64) : Binary64 :=
  ofRatio (x.isNegative != y.isNegative) (x.ratio.1 * y.ratio.2) (x.ratio.2 * y.ratio.1)

/-- The nearest integer to a finite number; a half goes away from zero. -/
def roundToInt (x : Binary64) : Int :=
  let n : Int := roundAway x.ratio.1 x.ratio.2
  if x.isNegative then -n else n

/-- The integer part of a finite number's absolute value. -/
def truncToNat (x : Binary64) : Nat := x.ratio.1 / x.ratio.2

/-- A finite number without a fractional part. -/
def isIntegral (x : Binary64) : Bool := x.isFinite && x.ratio.1 % x.ratio.2 == 0

/-- An integer that orders the doubles other than NaN as their values do. -/
def orderKey (x : Binary64) : Int := if x.isNegative then -(x.absBits : Int) else x.absBits

end Binary64

end ProxyFleet

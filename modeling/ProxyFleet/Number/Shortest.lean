import ProxyFleet.Number.Binary64

/-!
# Shortest decimal text of a double

`Binary64.shortest` gives the fewest decimal digits that read back as the same double, and of
those the nearest to it. Two layouts are built on it.

* `Binary64.jsonText` : positional from `1e-5` up to below `1e16`, with `.0` on an integer,
  otherwise scientific with a signed exponent;
* `Binary64.plainText` : always positional, and an integer has no point.
-/

namespace ProxyFleet

set_option autoImplicit false

namespace Binary64

/-- The exponent of the leading decimal digit of a positive fraction: the `p` with
`10 ^ p ≤ num / den < 10 ^ (p + 1)`. -/
def leadingExponent (num den : Nat) : Int :=
  if den ≤ num then ((Nat.toDigits 10 (num / den)).length : Int) - 1
  else
    let t := (Nat.toDigits 10 (den / num)).length - 1
    if den ≤ num * Nat.pow 10 t then -(t : Int) else -(t : Int) - 1

/-- The reals that round to one double, with the double itself, as numerators over one
denominator; the ends belong to the interval only where `closed` holds. -/
structure RoundingInterval where
  low : Nat
  value : Nat
  high : Nat
  denominator : Nat
  closed : Bool

/-- The rounding interval of `m * 2 ^ q`. Below a power of two the neighbour is twice as near. -/
def roundingInterval (m : Nat) (q : Int) : RoundingInterval :=
  let scale := Nat.pow 2 q.toNat
  let below := if m = Nat.pow 2 52 ∧ -1074 < q then 1 else 2
  { low := (4 * m - below) * scale, value := 4 * m * scale, high := (4 * m + 2) * scale
    denominator := 4 * Nat.pow 2 (-q).toNat, closed := m % 2 == 0 }

/-- Whether `c * 10 ^ e` rounds to the double of the interval. -/
def RoundingInterval.contains (r : RoundingInterval) (c : Nat) (e : Int) : Bool :=
  let num := c * Nat.pow 10 e.toNat * r.denominator
  let unit := Nat.pow 10 (-e).toNat
  if r.closed then r.low * unit ≤ num && num ≤ r.high * unit
  else r.low * unit < num && num < r.high * unit

/-- The neighbour of the double on the grid of multiples of `10 ^ e` that rounds to it, if one
does; of two the nearer, and of two equally near the even one. -/
def RoundingInterval.onGrid? (r : RoundingInterval) (e : Int) : Option Nat :=
  let num := r.value * Nat.pow 10 (-e).toNat
  let den := r.denominator * Nat.pow 10 e.toNat
  let floor := num / den
  match r.contains floor e, r.contains (floor + 1) e with
  | true, true => some (roundEven num den)
  | true, false => some floor
  | false, true => some (floor + 1)
  | false, false => none

/-- The digits `d` and the exponent `e` of the shortest decimal `d * 10 ^ e` that rounds to
`m * 2 ^ q`, for a positive `m`; seventeen digits always do. -/
def shortest (m : Nat) (q : Int) : Nat × Int :=
  let r := roundingInterval m q
  let p := leadingExponent r.value r.denominator
  let grids := (List.range 17).map fun (k : Nat) => p - (k : Int)
  match grids.findSome? fun e => (r.onGrid? e).map (·, e) with
  | some found => found
  | none => (r.value * Nat.pow 10 (16 - p).toNat / (r.denominator * Nat.pow 10 (p - 16).toNat), p - 16)

/-- A positive number of decimal digits as text, with its scientific exponent: the digits carry
no zero at the end. -/
def digitsAndExponent (x : Binary64) : List Char × Int :=
  let (d, e) := shortest x.magnitude.1 x.magnitude.2
  let digits := Nat.toDigits 10 d
  ((digits.reverse.dropWhile (· == '0')).reverse, e + digits.length - 1)

/-- Digits placed around the decimal point; `p` is the exponent of the first. -/
def positional (digits : List Char) (p : Int) : List Char × List Char :=
  if p < 0 then (['0'], List.replicate (-p - 1).toNat '0' ++ digits)
  else
    let whole := p.toNat + 1
    (digits.take whole ++ List.replicate (whole - digits.length) '0', digits.drop whole)

/-- The text of a finite number in a JSON document. -/
def jsonText (x : Binary64) : String :=
  let sign := if x.isNegative then "-" else ""
  if x.isZero then sign ++ "0.0"
  else
    let (digits, p) := x.digitsAndExponent
    if -5 ≤ p ∧ p < 16 then
      let (whole, fraction) := positional digits p
      sign ++ String.ofList whole ++ "." ++
        (if fraction.isEmpty then "0" else String.ofList fraction)
    else
      let tail := digits.drop 1
      sign ++ String.ofList (digits.take 1) ++ (if tail.isEmpty then "" else "." ++ String.ofList tail) ++
        "e" ++ (if p < 0 then "-" else "+") ++ toString p.natAbs

/-- The text of a number for readers: positional, without a point where it is an integer. -/
def plainText (x : Binary64) : String :=
  let sign := if x.isNegative then "-" else ""
  if x.isNaN then "NaN"
  else if !x.isFinite then sign ++ "inf"
  else if x.isZero then sign ++ "0"
  else
    let (digits, p) := x.digitsAndExponent
    let (whole, fraction) := positional digits p
    sign ++ String.ofList whole ++ (if fraction.isEmpty then "" else "." ++ String.ofList fraction)

end Binary64

end ProxyFleet

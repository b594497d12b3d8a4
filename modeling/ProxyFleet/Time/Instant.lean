import ProxyFleet.Time.Day

/-!
# Moments

An `Instant` is a moment in UTC with the precision of a nanosecond.

* `Instant.stamp` : date and time with six digits of a second, so that stamps of years with four
  digits compare as texts as their moments do;
* `Instant.text` : date and time with as many digits of a second as there are, by threes;
* `Instant.ofText?` : the moment that a date and time with an offset from UTC names.
-/

namespace ProxyFleet

set_option autoImplicit false

/-- A moment: nanoseconds since the start of 1970 in UTC. -/
structure Instant where
  nanos : Int
  deriving DecidableEq

namespace Instant

instance : LT Instant := ⟨fun a b => a.nanos < b.nanos⟩

instance : LE Instant := ⟨fun a b => a.nanos ≤ b.nanos⟩

instance (a b : Instant) : Decidable (a < b) := inferInstanceAs (Decidable (a.nanos < b.nanos))

instance (a b : Instant) : Decidable (a ≤ b) := inferInstanceAs (Decidable (a.nanos ≤ b.nanos))

/-- Nanoseconds of a second. -/
def perSecond : Int := 1000000000

/-- The moment a number of seconds after the start of 1970. -/
def ofSeconds (s : Int) : Instant := ⟨s * perSecond⟩

/-- Whole seconds since the start of 1970. -/
def seconds (t : Instant) : Int := t.nanos / perSecond

/-- The moment a number of days later. -/
def addDays (t : Instant) (days : Int) : Instant := ⟨t.nanos + days * 86400 * perSecond⟩

/-- The day of a moment. -/
def day (t : Instant) : Day := Day.ofNumber (t.seconds / 86400)

/-! ## Text -/

/-- Hours, minutes and seconds within the day. -/
def clock (t : Instant) : String :=
  let s := (t.seconds % 86400).toNat
  Day.padded 2 (s / 3600) ++ ":" ++ Day.padded 2 (s / 60 % 60) ++ ":" ++ Day.padded 2 (s % 60)

/-- Nanoseconds within the second. -/
def fraction (t : Instant) : Nat := (t.nanos % perSecond).toNat

/-- The digits of a second, by threes; none for a whole one. -/
def fractionText (t : Instant) : String :=
  let n := t.fraction
  if n = 0 then ""
  else if n % 1000000 = 0 then "." ++ Day.padded 3 (n / 1000000)
  else if n % 1000 = 0 then "." ++ Day.padded 6 (n / 1000)
  else "." ++ Day.padded 9 n

/-- Date and time in UTC, with six digits of a second. -/
def stamp (t : Instant) : String :=
  t.day.text ++ "T" ++ t.clock ++ "." ++ Day.padded 6 (t.fraction / 1000) ++ "Z"

/-- Date and time in UTC, with the digits of a second that are needed. -/
def text (t : Instant) : String := t.day.text ++ "T" ++ t.clock ++ t.fractionText ++ "Z"

/-- Date and time in UTC for a reader. -/
def display (t : Instant) : String := t.day.text ++ " " ++ t.clock ++ t.fractionText ++ " UTC"

/-- Date, hour and minute for a table. -/
def minuteText (t : Instant) : String := t.day.text ++ " " ++ String.ofList (t.clock.toList.take 5)

/-! ## Reading -/

/-- Exactly so many digits, and what stands behind them. -/
def readExact? (count : Nat) (cs : List Char) : Option (Nat × List Char) :=
  let digits := cs.take count
  if digits.length = count ∧ digits.all Char.isDigit then
    some (digits.foldl (fun n c => n * 10 + (c.toNat - '0'.toNat)) 0, cs.drop count)
  else none

/-- What stands behind one of the given characters. -/
def skip? (allowed : List Char) : List Char → Option (List Char)
  | c :: rest => if allowed.contains c then some rest else none
  | [] => none

/-- A fraction of a second in nanoseconds, if there is a point; digits beyond the ninth count for
nothing. -/
def readFraction? : List Char → Option (Nat × List Char)
  | '.' :: rest =>
    let digits := rest.takeWhile Char.isDigit
    let nine := (digits ++ List.replicate 9 '0').take 9
    if digits.isEmpty then none
    else some (nine.foldl (fun n c => n * 10 + (c.toNat - '0'.toNat)) 0, rest.drop digits.length)
  | cs => some (0, cs)

/-- An offset from UTC in seconds, at the end of a text. -/
def readOffset? : List Char → Option Int
  | ['Z'] | ['z'] => some 0
  | sign :: rest => do
    guard (['+', '-', '\u2212'].contains sign)
    let (hours, rest) ← readExact? 2 rest
    let (minutes, rest) ← readExact? 2 (← skip? [':'] rest)
    let seconds : Int := hours * 3600 + minutes * 60
    guard (rest.isEmpty ∧ minutes < 60 ∧ seconds ≤ 86400)
    return if sign = '+' then seconds else -seconds
  | [] => none

/-- The moment that a date and time with an offset from UTC names; the second 60 is one that was
inserted. -/
def ofText? (s : String) : Option Instant := do
  let (year, rest) ← readExact? 4 s.toList
  let (month, rest) ← readExact? 2 (← skip? ['-'] rest)
  let (day, rest) ← readExact? 2 (← skip? ['-'] rest)
  let (hour, rest) ← readExact? 2 (← skip? ['T', 't', ' '] rest)
  let (minute, rest) ← readExact? 2 (← skip? [':'] rest)
  let (second, rest) ← readExact? 2 (← skip? [':'] rest)
  let (nanos, rest) ← readFraction? rest
  let offset ← readOffset? rest
  guard (1 ≤ month ∧ month ≤ 12 ∧ 1 ≤ day ∧ day ≤ Day.monthLength year month)
  guard (hour < 24 ∧ minute < 60 ∧ second ≤ 60)
  let date := Day.number ⟨year, month, day⟩
  return ⟨(date * 86400 + hour * 3600 + minute * 60 + second - offset) * perSecond + nanos⟩

end Instant

end ProxyFleet

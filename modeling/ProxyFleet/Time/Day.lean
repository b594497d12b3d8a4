import ProxyFleet.Text.Blank
import ProxyFleet.Text.Letters

/-!
# Days of the calendar

* `Day.ofNumber`, `Day.number` : days counted from the first of January 1970, in the calendar whose
  leap years are those divisible by four, centuries only when divisible by four hundred;
* `Day.text` : year, month and day with hyphens; a year of other than four digits carries its sign;
* `Day.read` : the day a text names, or why it names none.
-/

namespace ProxyFleet

set_option autoImplicit false

/-- A day of the calendar. -/
structure Day where
  year : Int
  month : Nat
  day : Nat
  deriving DecidableEq

namespace Day

/-! ## Counting days -/

/-- A year with 366 days. -/
def isLeap (year : Int) : Bool := year % 4 == 0 && (year % 100 != 0 || year % 400 == 0)

/-- The number of days of a month. -/
def monthLength (year : Int) (month : Nat) : Nat :=
  if month = 2 then (if isLeap year then 29 else 28)
  else if month = 4 ∨ month = 6 ∨ month = 9 ∨ month = 11 then 30
  else 31

/-- The number of days from the first of January 1970. Years are counted from March, so that a
leap day is the last of its year, in spans of four hundred years. -/
def number (d : Day) : Int :=
  let y := if d.month ≤ 2 then d.year - 1 else d.year
  let inYear : Int := (153 * (((d.month : Int) + 9) % 12) + 2) / 5 + d.day - 1
  let inSpan := y % 400 * 365 + y % 400 / 4 - y % 400 / 100 + inYear
  y / 400 * 146097 + inSpan - 719468

/-- The day that is a number of days from the first of January 1970. -/
def ofNumber (n : Int) : Day :=
  let inSpan := (n + 719468) % 146097
  let yearInSpan := (inSpan - inSpan / 1460 + inSpan / 36524 - inSpan / 146096) / 365
  let inYear := inSpan - (365 * yearInSpan + yearInSpan / 4 - yearInSpan / 100)
  let fromMarch := (5 * inYear + 2) / 153
  let month := (fromMarch + 2) % 12 + 1
  let year := (n + 719468) / 146097 * 400 + yearInSpan + (if month ≤ 2 then 1 else 0)
  ⟨year, month.toNat, (inYear - (153 * fromMarch + 2) / 5 + 1).toNat⟩

/-! ## Text -/

/-- A number with at least as many digits as given. -/
def padded (digits : Nat) (n : Nat) : String :=
  let s := toString n
  String.ofList (List.replicate (digits - s.length) '0') ++ s

/-- A year: four digits, or a sign and at least four. -/
def yearText (year : Int) : String :=
  if 0 ≤ year ∧ year ≤ 9999 then padded 4 year.natAbs
  else (if year < 0 then "-" else "+") ++ padded 4 year.natAbs

/-- A day as text. -/
def text (d : Day) : String := yearText d.year ++ "-" ++ padded 2 d.month ++ "-" ++ padded 2 d.day

/-- Why a text names no day. -/
inductive ReadError where
  | invalid
  | tooShort
  | tooLong
  | outOfRange

/-- The wording of a refusal. -/
def ReadError.message : ReadError → String
  | invalid => "input contains invalid characters"
  | tooShort => "premature end of input"
  | tooLong => "trailing input"
  | outOfRange => "input is out of range"

/-- A number of at least one and at most so many digits, and what stands behind it. Numbers beyond
64 bits are out of range. -/
def readDigits (most : Nat) (cs : List Char) : Except ReadError (Nat × List Char) :=
  let digits := (cs.take most).takeWhile Char.isDigit
  match cs with
  | [] => .error .tooShort
  | _ =>
    if digits.isEmpty then .error .invalid
    else
      let n := digits.foldl (fun n c => n * 10 + (c.toNat - '0'.toNat)) 0
      if n < Nat.pow 2 63 then .ok (n, cs.drop digits.length) else .error .outOfRange

/-- A year: four digits at most, or a sign and any number of them. -/
def readYear (cs : List Char) : Except ReadError (Int × List Char) := do
  let inRange (i : Int) (rest : List Char) : Except ReadError (Int × List Char) :=
    if -(Nat.pow 2 31) ≤ i ∧ i < Nat.pow 2 31 then .ok (i, rest) else .error .outOfRange
  match cs.dropWhile Text.isBlank with
  | '-' :: rest =>
    let (n, rest) ← readDigits rest.length rest
    inRange (-n) rest
  | '+' :: rest =>
    let (n, rest) ← readDigits rest.length rest
    inRange n rest
  | rest =>
    let (n, rest) ← readDigits 4 rest
    inRange n rest

/-- A number of one or two digits up to a bound, which blanks may precede. -/
def readSmall (most : Nat) (cs : List Char) : Except ReadError (Nat × List Char) := do
  let (n, rest) ← readDigits 2 (cs.dropWhile Text.isBlank)
  if 1 ≤ n ∧ n ≤ most then return (n, rest) else throw .outOfRange

/-- What stands behind a hyphen. -/
def readHyphen : List Char → Except ReadError (List Char)
  | [] => .error .tooShort
  | '-' :: rest => .ok rest
  | _ => .error .invalid

/-- The years that a day may have. -/
def years : Int × Int := (-262143, 262142)

/-- The day that a text names. -/
def read (s : String) : Except ReadError Day := do
  let (year, rest) ← readYear s.toList
  let (month, rest) ← readSmall 12 (← readHyphen rest)
  let (day, rest) ← readSmall 31 (← readHyphen rest)
  if !rest.isEmpty then throw .tooLong
  if year < years.1 ∨ years.2 < year ∨ monthLength year month < day then throw .outOfRange
  return ⟨year, month, day⟩

end Day

end ProxyFleet

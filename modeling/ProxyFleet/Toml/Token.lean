import ProxyFleet.Json.Reader
import ProxyFleet.Time.Day

/-!
# Words of a configuration text

What keys and single values are written with, read from the front of a list of characters. Every
reader answers with what it read and the rest, or with nothing where the text is malformed.

* `skipLineEnd?` : blanks, a comment, and the end of the line;
* `readKey?` : a bare or quoted key, or several with points between them;
* `readQuoted?` : the four forms of a text;
* `readNumber?`, `readMoment?` : integers and doubles, and dates and times.
-/

namespace ProxyFleet.Toml

set_option autoImplicit false

/-! ## Blanks, comments and lines -/

/-- The rest of a text after blanks within a line. -/
def skipBlank (cs : List Char) : List Char := cs.dropWhile fun c => c == ' ' || c == '\t'

/-- The rest of a text after a line break. -/
def skipNewline? : List Char → Option (List Char)
  | '\n' :: rest => some rest
  | '\r' :: '\n' :: rest => some rest
  | _ => none

/-- A character that a comment or a literal text may hold: no control character but the tab. -/
def isPrintable (c : Char) : Bool := c == '\t' || (32 ≤ c.toNat && c.toNat ≠ 127)

/-- The rest of a text after the comment in front of it, if there is one. -/
def skipComment : List Char → List Char
  | '#' :: rest => rest.dropWhile isPrintable
  | cs => cs

/-- The rest of a text after blanks, a comment, and the end of the line or of the text. -/
def skipLineEnd? (cs : List Char) : Option (List Char) :=
  match skipComment (skipBlank cs) with
  | [] => some []
  | rest => skipNewline? rest

/-- The rest of a text after blanks, comments and line breaks, of at most `fuel` lines. -/
def skipLines? : Nat → List Char → Option (List Char)
  | 0, cs => some cs
  | fuel + 1, cs =>
    match skipBlank cs with
    | '#' :: rest =>
      match skipNewline? (skipComment ('#' :: rest)) with
      | some rest => skipLines? fuel rest
      | none => none
    | rest =>
      match skipNewline? rest with
      | some rest => skipLines? fuel rest
      | none => some rest

/-! ## Texts -/

/-- The number of a code of exactly so many hexadecimal digits, and the rest. -/
def readHex? (count : Nat) (cs : List Char) : Option (Nat × List Char) :=
  match (cs.take count).mapM Json.hexValue? with
  | some ds => if ds.length = count then some (ds.foldl (· * 16 + ·) 0, cs.drop count) else none
  | none => none

/-- The character with a code, unless the code is a surrogate's or too large. -/
def charOf? (code : Nat) : Option Char :=
  if code < 0xD800 ∨ (0xDFFF < code ∧ code < 0x110000) then some (Char.ofNat code) else none

/-- The character of an escape, after its backslash. -/
def readEscape? : List Char → Option (Char × List Char)
  | 'b' :: rest => some ('\x08', rest)
  | 't' :: rest => some ('\t', rest)
  | 'n' :: rest => some ('\n', rest)
  | 'f' :: rest => some ('\x0c', rest)
  | 'r' :: rest => some ('\r', rest)
  | '"' :: rest => some ('"', rest)
  | '\\' :: rest => some ('\\', rest)
  | 'u' :: rest => (readHex? 4 rest).bind fun (code, rest) => (charOf? code).map (·, rest)
  | 'U' :: rest => (readHex? 8 rest).bind fun (code, rest) => (charOf? code).map (·, rest)
  | _ => none

/-- A text on one line with escapes, after its opening quote. -/
def readBasic? : Nat → List Char → Option (List Char × List Char)
  | 0, _ => none
  | fuel + 1, cs =>
    match cs with
    | '"' :: rest => some ([], rest)
    | '\\' :: rest =>
      match readEscape? rest with
      | some (c, rest) => (readBasic? fuel rest).map fun (s, after) => (c :: s, after)
      | none => none
    | c :: rest =>
      if isPrintable c then (readBasic? fuel rest).map fun (s, after) => (c :: s, after) else none
    | [] => none

/-- A text on one line without escapes, after its opening quote. -/
def readLiteral? (cs : List Char) : Option (List Char × List Char) :=
  let inside (c : Char) : Bool := isPrintable c && c != '\''
  match cs.dropWhile inside with
  | '\'' :: rest => some (cs.takeWhile inside, rest)
  | _ => none

/-- The rest of a text after a backslash at the end of a line, the line break, and every blank and
line break that follows. -/
def skipFolded? (cs : List Char) : Option (List Char) :=
  (skipNewline? (skipBlank cs)).map skipFoldedBlank
where
  /-- The rest after blanks and line breaks. -/
  skipFoldedBlank : List Char → List Char
    | '\r' :: '\n' :: rest => skipFoldedBlank rest
    | c :: rest => if c = '\n' ∨ c = ' ' ∨ c = '\t' then skipFoldedBlank rest else c :: rest
    | [] => []

/-- A text of several lines after its opening quotes. Up to two quotes may stand in it or right
before the closing ones; every line break counts as a line feed. -/
def readLong? (quote : Char) (escapes : Bool) : Nat → List Char → Option (List Char × List Char)
  | 0, _ => none
  | fuel + 1, cs =>
    let quotes := (cs.takeWhile (· == quote)).length
    if 3 ≤ quotes then
      let inside := min (quotes - 3) 2
      some (List.replicate inside quote, cs.drop (inside + 3))
    else
      match cs with
      | '\r' :: '\n' :: rest => (readLong? quote escapes fuel rest).map fun (s, after) => ('\n' :: s, after)
      | '\n' :: rest => (readLong? quote escapes fuel rest).map fun (s, after) => ('\n' :: s, after)
      | c :: rest =>
        if c = '\\' ∧ escapes then
          match readEscape? rest with
          | some (c, rest) => (readLong? quote escapes fuel rest).map fun (s, after) => (c :: s, after)
          | none => (skipFolded? rest).bind (readLong? quote escapes fuel)
        else if isPrintable c then
          (readLong? quote escapes fuel rest).map fun (s, after) => (c :: s, after)
        else none
      | [] => none

/-- The rest of a text after a line break in front of it, if there is one. -/
def dropNewline (cs : List Char) : List Char := (skipNewline? cs).getD cs

/-- A text on one line, with its quotes. -/
def readShort? : List Char → Option (List Char × List Char)
  | '"' :: rest => readBasic? (rest.length + 1) rest
  | '\'' :: rest => readLiteral? rest
  | _ => none

/-- A text, with its quotes. -/
def readQuoted? (cs : List Char) : Option (String × List Char) :=
  let text := match cs with
    | '"' :: '"' :: '"' :: rest => readLong? '"' true (rest.length + 1) (dropNewline rest)
    | '\'' :: '\'' :: '\'' :: rest => readLong? '\'' false (rest.length + 1) (dropNewline rest)
    | _ => readShort? cs
  text.map fun (s, rest) => (String.ofList s, rest)

/-! ## Keys -/

/-- A character of a key without quotes. -/
def isBare (c : Char) : Bool := c.isAlphanum || c == '-' || c == '_'

/-- One key, with or without quotes. -/
def readSimpleKey? (cs : List Char) : Option (String × List Char) :=
  match readShort? cs with
  | some (s, rest) => some (String.ofList s, rest)
  | none =>
    let bare := cs.takeWhile isBare
    if bare.isEmpty then none else some (String.ofList bare, cs.drop bare.length)

/-- Keys with points between them, and blanks around each. -/
def readKey? : Nat → List Char → Option (List String × List Char)
  | 0, _ => none
  | fuel + 1, cs =>
    match readSimpleKey? (skipBlank cs) with
    | none => none
    | some (key, rest) =>
      match skipBlank rest with
      | '.' :: rest => (readKey? fuel rest).map fun (keys, after) => (key :: keys, after)
      | rest => some ([key], rest)

/-- How many keys may be joined, and how many arrays and tables may nest. -/
def maxDepth : Nat := 80

/-! ## Numbers -/

/-- Digits with single underscores between them; an underscore has to stand between two digits. -/
def readGroups? (isDigit : Char → Bool) : List Char → Option (List Char × List Char)
  | [] => none
  | c :: rest => if isDigit c then go [c] rest else none
where
  /-- More digits after those that were read, which stand in reverse. -/
  go (read : List Char) : List Char → Option (List Char × List Char)
    | [] => some (read.reverse, [])
    | '_' :: rest =>
      match rest with
      | c :: rest => if isDigit c then go (c :: read) rest else none
      | [] => none
    | c :: rest => if isDigit c then go (c :: read) rest else some (read.reverse, c :: rest)

/-- The number of digits in a base. -/
def digitsValue (base : Nat) (ds : List Char) : Nat :=
  ds.foldl (fun n c => n * base + (Json.hexValue? c).getD 0) 0

/-- The sign in front of a number: whether it is a minus. -/
def readSign : List Char → Bool × List Char
  | '-' :: rest => (true, rest)
  | '+' :: rest => (false, rest)
  | cs => (false, cs)

/-- The digits of a decimal number; a zero in front stands alone. -/
def readDecimal? : List Char → Option (List Char × List Char)
  | '0' :: rest => some (['0'], rest)
  | cs => readGroups? Char.isDigit cs

/-- An integer, if it fits 64 bits. -/
def integer? (negative : Bool) (n : Nat) : Option Json :=
  let i : Int := if negative then -(n : Int) else n
  if -(Nat.pow 2 63) ≤ i ∧ i < Nat.pow 2 63 then some (.int i) else none

/-- The double nearest to a decimal number, unless that is infinite. -/
def double? (negative : Bool) (digits : Nat) (exponent : Int) : Option Json :=
  let x :=
    if digits = 0 ∨ exponent + (Nat.log2 digits : Int) < -1100 then Binary64.ofRatio negative 0 1
    else if 400 < exponent then Binary64.infinity negative
    else if 0 ≤ exponent then Binary64.ofRatio negative (digits * Nat.pow 10 exponent.toNat) 1
    else Binary64.ofRatio negative digits (Nat.pow 10 exponent.natAbs)
  if x.isFinite ∨ negative then some (.num (.float x)) else none

/-- The exponent of a double after its `e`. -/
def readExponent? (cs : List Char) : Option (Int × List Char) :=
  let (negative, cs) := readSign cs
  (readGroups? Char.isDigit cs).map fun (ds, rest) =>
    let n := min (digitsValue 10 ds) (Nat.pow 2 31)
    (if negative then -(n : Int) else n, rest)

/-- The rest of a decimal number whose integer digits were read. -/
def readDecimalRest? (negative : Bool) (whole rest : List Char) : Option (Json × List Char) :=
  let withExponent (ds : List Char) (places : Nat) : List Char → Option (Json × List Char)
    | 'e' :: rest | 'E' :: rest => do
      let (exponent, rest) ← readExponent? rest
      return (← double? negative (digitsValue 10 ds) (exponent - places), rest)
    | rest => (double? negative (digitsValue 10 ds) (-(places : Int))).map (·, rest)
  match rest with
  | '.' :: rest =>
    (readGroups? Char.isDigit rest).bind fun (fraction, rest) =>
      withExponent (whole ++ fraction) fraction.length rest
  | 'e' :: _ | 'E' :: _ => withExponent whole 0 rest
  | _ => (integer? negative (digitsValue 10 whole)).map (·, rest)

/-- A number in another base than ten, after its mark. -/
def readInBase? (base : Nat) (isDigit : Char → Bool) (cs : List Char) : Option (Json × List Char) :=
  (readGroups? isDigit cs).bind fun (ds, rest) =>
    (integer? false (digitsValue base ds)).map (·, rest)

/-- A number. -/
def readNumber? (cs : List Char) : Option (Json × List Char) :=
  match cs with
  | '0' :: 'x' :: rest => readInBase? 16 (fun c => (Json.hexValue? c).isSome) rest
  | '0' :: 'o' :: rest => readInBase? 8 (fun c => '0' ≤ c && c ≤ '7') rest
  | '0' :: 'b' :: rest => readInBase? 2 (fun c => c == '0' || c == '1') rest
  | _ =>
    let (negative, rest) := readSign cs
    match rest with
    | 'i' :: 'n' :: 'f' :: rest => some (.num (.float (Binary64.infinity negative)), rest)
    | 'n' :: 'a' :: 'n' :: rest => some (.num (.float Binary64.nan), rest)
    | _ => (readDecimal? rest).bind fun (whole, rest) => readDecimalRest? negative whole rest

/-! ## Dates and times -/

/-- A number of exactly two digits up to a bound, and the rest. -/
def readTwo? (low high : Nat) : List Char → Option (Nat × List Char)
  | a :: b :: rest =>
    let n := digitsValue 10 [a, b]
    if a.isDigit ∧ b.isDigit ∧ low ≤ n ∧ n ≤ high then some (n, rest) else none
  | _ => none

/-- Whether a text starts with a date. -/
def startsDate (cs : List Char) : Bool :=
  (cs.take 4).length == 4 && (cs.take 4).all Char.isDigit && cs[4]? == some '-'

/-- Whether a text starts with a time. -/
def startsTime (cs : List Char) : Bool :=
  (cs.take 2).length == 2 && (cs.take 2).all Char.isDigit && cs[2]? == some ':'

/-- The rest of a text after a date. -/
def skipDate? (cs : List Char) : Option (List Char) := do
  let year := digitsValue 10 (cs.take 4)
  let (month, rest) ← readTwo? 1 12 (cs.drop 5)
  let rest ← Json.skipExactly? ['-'] rest
  let (_, rest) ← readTwo? 1 (Day.monthLength year month) rest
  return rest

/-- The rest of a text after a time. -/
def skipTime? (cs : List Char) : Option (List Char) := do
  let (_, rest) ← readTwo? 0 23 cs
  let (_, rest) ← readTwo? 0 59 (← Json.skipExactly? [':'] rest)
  let (_, rest) ← readTwo? 0 60 (← Json.skipExactly? [':'] rest)
  match rest with
  | '.' :: rest =>
    let after := rest.dropWhile Char.isDigit
    if after.length = rest.length then none else return after
  | rest => return rest

/-- The rest of a text after an offset from UTC, if there is one. -/
def skipOffset? (cs : List Char) : Option (List Char) :=
  match cs with
  | 'Z' :: rest | 'z' :: rest => some rest
  | '+' :: rest | '-' :: rest => do
    let (_, rest) ← readTwo? 0 23 rest
    let (_, rest) ← readTwo? 0 59 (← Json.skipExactly? [':'] rest)
    return rest
  | rest => some rest

/-- The name of the field under which a date or time is kept. -/
def momentField : String := "moment"

/-- A date or time as a value, with the rest after it. -/
def moment (cs rest : List Char) : Json × List Char :=
  (.obj [(momentField, .str (String.ofList (cs.take (cs.length - rest.length))))], rest)

/-- A date, a time, or both, with an offset from UTC or without. -/
def readMoment? (cs : List Char) : Option (Json × List Char) :=
  if startsDate cs then
    (skipDate? cs).bind fun rest =>
      match rest with
      | d :: after =>
        if (d = 'T' ∨ d = 't' ∨ d = ' ') ∧ startsTime after then
          ((skipTime? after).bind skipOffset?).map (moment cs)
        else some (moment cs rest)
      | [] => some (moment cs [])
  else (skipTime? cs).map (moment cs)

end ProxyFleet.Toml

import ProxyFleet.Json.Value

/-!
# Reading JSON text

`Json.parseRaw?` reads one value that fills its text, with the fields of objects as they are
written; `Json.parse?` sorts them.

* a value nests at most `Json.maxDepth` arrays and objects;
* an integer that fits 64 bits stays an integer, apart from `-0`; every other number is a double,
  from its leading digits (those below `2 ^ 64`) scaled once by a power of ten;
* an escape that is half of a surrogate pair, and a bare control character, are refused.
-/

namespace ProxyFleet

set_option autoImplicit false

namespace Json

/-- The rest of a text after its blanks. -/
def skipBlank : List Char → List Char
  | [] => []
  | c :: rest => if c = ' ' ∨ c = '\n' ∨ c = '\t' ∨ c = '\r' then skipBlank rest else c :: rest

/-- The rest of a text that starts with the given characters. -/
def skipExactly? : List Char → List Char → Option (List Char)
  | [], rest => some rest
  | _ :: _, [] => none
  | e :: es, c :: cs => if e = c then skipExactly? es cs else none

/-! ## Numbers -/

/-- The value of a decimal digit. -/
def digitValue (c : Char) : Nat := c.toNat - '0'.toNat

/-- The leading digits of a text, read on as long as the number stays below `2 ^ 64`; with the
number of digits read, and the rest. -/
def readDigits : List Char → Nat → Nat → Nat × Nat × List Char
  | [], value, count => (value, count, [])
  | c :: rest, value, count =>
    if c.isDigit ∧ value * 10 + digitValue c < Nat.pow 2 64 then
      readDigits rest (value * 10 + digitValue c) (count + 1)
    else (value, count, c :: rest)

/-- The number of digits at the front of a text, and the rest. -/
def countDigits : List Char → Nat × List Char
  | [] => (0, [])
  | c :: rest => if c.isDigit then ((countDigits rest).1 + 1, (countDigits rest).2) else (0, c :: rest)

/-- Scale by powers of ten above `10 ^ 308` step by step, then once by the rest: none where the
result is too large for a double. -/
def scaleByTen? : Nat → Binary64 → Int → Option Binary64
  | steps, f, e =>
    if e.natAbs ≤ 308 then
      let power := Binary64.ofNat (Nat.pow 10 e.natAbs)
      let scaled := if 0 ≤ e then f.mul power else f.div power
      if scaled.isFinite then some scaled else none
    else if f.isZero then some f
    else if 0 ≤ e then none
    else match steps with
      | 0 => some f
      | steps + 1 => scaleByTen? steps (f.div (Binary64.ofNat (Nat.pow 10 308))) (e + 308)

/-- The double of a sign, leading digits and a decimal exponent. Three steps of `10 ^ 308` take
any number of 64 bits to zero. -/
def decimal? (negative : Bool) (significand : Nat) (exponent : Int) : Option Binary64 :=
  (scaleByTen? 3 (Binary64.ofNat significand) exponent).map fun f => if negative then f.neg else f

/-- The largest exponent that is still read as a number. -/
def maxExponent : Nat := Nat.pow 2 31 - 1

/-- The exponent part after its `e`, then the number. -/
def readExponent? (negative : Bool) (significand : Nat) (exponent : Int) (cs : List Char) :
    Option (JsonNumber × List Char) :=
  let (below, cs) : Bool × List Char := match cs with
    | '+' :: rest => (false, rest)
    | '-' :: rest => (true, rest)
    | _ => (false, cs)
  let (count, rest) := countDigits cs
  let written := (cs.take count).foldl (fun n c => n * 10 + digitValue c) 0
  if count = 0 then none
  else if maxExponent < written then
    if significand ≠ 0 ∧ ¬below then none
    else some (.float (if negative then Binary64.zero.neg else Binary64.zero), rest)
  else
    let total := if below then exponent - written else exponent + written
    (decimal? negative significand (max (-(maxExponent : Int) - 1) (min maxExponent total))).map
      fun f => (.float f, rest)

/-- What follows the integer part of a number whose leading digits are `significand`, of which
`exponent` more were passed over. -/
def readFraction? (negative : Bool) (significand : Nat) (exponent : Int) (cs : List Char) :
    Option (JsonNumber × List Char) :=
  match cs with
  | '.' :: rest =>
    let (value, count, after) := readDigits rest significand 0
    let (passed, after) := countDigits after
    if count + passed = 0 then none
    else
      match after with
      | 'e' :: tail => readExponent? negative value (exponent - count) tail
      | 'E' :: tail => readExponent? negative value (exponent - count) tail
      | _ => (decimal? negative value (exponent - count)).map fun f => (.float f, after)
  | 'e' :: rest => readExponent? negative significand exponent rest
  | 'E' :: rest => readExponent? negative significand exponent rest
  | _ => (decimal? negative significand exponent).map fun f => (.float f, cs)

/-- Whether a text goes on as the number of a double. -/
def startsFraction : List Char → Bool
  | c :: _ => c == '.' || c == 'e' || c == 'E'
  | [] => false

/-- A number without its sign. -/
def readUnsigned? (negative : Bool) (cs : List Char) : Option (JsonNumber × List Char) :=
  let (value, count, rest) := readDigits cs 0 0
  let (passed, after) := countDigits rest
  if count = 0 then none
  else if cs.head? = some '0' ∧ 1 < count then none
  else if startsFraction after ∨ 0 < passed then readFraction? negative value passed after
  else if ¬negative then some (.int value, after)
  else if 0 < value ∧ value ≤ Nat.pow 2 63 then some (.int (-(value : Int)), after)
  else some (.float (Binary64.ofNat value).neg, after)

/-- A number. -/
def readNumber? : List Char → Option (JsonNumber × List Char)
  | '-' :: rest => readUnsigned? true rest
  | cs => readUnsigned? false cs

/-! ## Texts -/

/-- The value of a hexadecimal digit. -/
def hexValue? (c : Char) : Option Nat :=
  if c.isDigit then some (c.toNat - '0'.toNat)
  else if 'a' ≤ c ∧ c ≤ 'f' then some (c.toNat - 'a'.toNat + 10)
  else if 'A' ≤ c ∧ c ≤ 'F' then some (c.toNat - 'A'.toNat + 10)
  else none

/-- The number of four hexadecimal digits. -/
def readHex4? : List Char → Option (Nat × List Char)
  | a :: b :: c :: d :: rest =>
    match hexValue? a, hexValue? b, hexValue? c, hexValue? d with
    | some a, some b, some c, some d => some (((a * 16 + b) * 16 + c) * 16 + d, rest)
    | _, _, _, _ => none
  | _ => none

/-- The character of an escape with a code, after its `\u`; a code above the first plane is
written as two. -/
def readEscapedCode? (cs : List Char) : Option (Char × List Char) :=
  match readHex4? cs with
  | none => none
  | some (high, rest) =>
    if high < 0xD800 ∨ 0xDFFF < high then some (Char.ofNat high, rest)
    else if 0xDC00 ≤ high then none
    else match rest with
      | '\\' :: 'u' :: rest =>
        match readHex4? rest with
        | some (low, rest) =>
          if 0xDC00 ≤ low ∧ low ≤ 0xDFFF then
            some (Char.ofNat (0x10000 + (high - 0xD800) * 0x400 + (low - 0xDC00)), rest)
          else none
        | none => none
      | _ => none

/-- One character of a quoted text, after which comes the rest. -/
def readChar? : List Char → Option (Char × List Char)
  | '\\' :: '"' :: rest => some ('"', rest)
  | '\\' :: '\\' :: rest => some ('\\', rest)
  | '\\' :: '/' :: rest => some ('/', rest)
  | '\\' :: 'b' :: rest => some ('\x08', rest)
  | '\\' :: 'f' :: rest => some ('\x0c', rest)
  | '\\' :: 'n' :: rest => some ('\n', rest)
  | '\\' :: 'r' :: rest => some ('\r', rest)
  | '\\' :: 't' :: rest => some ('\t', rest)
  | '\\' :: 'u' :: rest => readEscapedCode? rest
  | c :: rest => if c = '\\' ∨ c.toNat < 32 then none else some (c, rest)
  | [] => none

/-- The characters of a quoted text up to its closing quote; `fuel` bounds their number. -/
def readQuoted? : Nat → List Char → Option (List Char × List Char)
  | 0, _ => none
  | fuel + 1, cs =>
    match cs with
    | '"' :: rest => some ([], rest)
    | _ =>
      match readChar? cs with
      | none => none
      | some (c, rest) => (readQuoted? fuel rest).map fun (s, after) => (c :: s, after)

/-- A quoted text after its opening quote. -/
def readText? (cs : List Char) : Option (String × List Char) :=
  (readQuoted? (cs.length + 1) cs).map fun (s, rest) => (String.ofList s, rest)

/-! ## Values -/

/-- A value that holds no other. -/
def readScalar? (cs : List Char) : Option (Json × List Char) :=
  match cs with
  | '"' :: rest => (readText? rest).map fun (s, after) => (.str s, after)
  | 'n' :: rest => (skipExactly? "ull".toList rest).map fun after => (.null, after)
  | 't' :: rest => (skipExactly? "rue".toList rest).map fun after => (.bool true, after)
  | 'f' :: rest => (skipExactly? "alse".toList rest).map fun after => (.bool false, after)
  | _ => (readNumber? cs).map fun (n, after) => (.num n, after)

/-- The items of an array that is not empty, each read by `value`, up to its closing bracket. -/
def readItems? (value : List Char → Option (Json × List Char)) :
    Nat → List Char → Option (List Json × List Char)
  | 0, _ => none
  | fuel + 1, cs =>
    match value (skipBlank cs) with
    | none => none
    | some (v, rest) =>
      match skipBlank rest with
      | ',' :: rest => (readItems? value fuel rest).map fun (vs, after) => (v :: vs, after)
      | ']' :: rest => some ([v], rest)
      | _ => none

/-- A field of an object, with the blanks around it. -/
def readField? (value : List Char → Option (Json × List Char)) (cs : List Char) :
    Option ((String × Json) × List Char) :=
  match skipBlank cs with
  | '"' :: rest =>
    match readText? rest with
    | none => none
    | some (k, rest) =>
      match skipBlank rest with
      | ':' :: rest => (value (skipBlank rest)).map fun (v, after) => ((k, v), skipBlank after)
      | _ => none
  | _ => none

/-- The fields of an object that is not empty, up to its closing brace. -/
def readFields? (value : List Char → Option (Json × List Char)) :
    Nat → List Char → Option (JsonFields × List Char)
  | 0, _ => none
  | fuel + 1, cs =>
    match readField? value cs with
    | none => none
    | some (field, ',' :: rest) => (readFields? value fuel rest).map fun (fs, after) => (field :: fs, after)
    | some (field, '}' :: rest) => some ([field], rest)
    | some _ => none

/-- A value that nests at most `depth` arrays and objects, with no blank in front. -/
def readValue? : Nat → List Char → Option (Json × List Char)
  | 0, cs =>
    match cs with
    | '[' :: _ => none
    | '{' :: _ => none
    | _ => readScalar? cs
  | depth + 1, cs =>
    match cs with
    | '[' :: rest =>
      match skipBlank rest with
      | ']' :: after => some (.arr [], after)
      | _ => (readItems? (readValue? depth) rest.length rest).map fun (vs, after) => (.arr vs, after)
    | '{' :: rest =>
      match skipBlank rest with
      | '}' :: after => some (.obj [], after)
      | _ => (readFields? (readValue? depth) rest.length rest).map fun (fs, after) => (.obj fs, after)
    | _ => readScalar? cs

/-- How many arrays and objects a text may nest. -/
def maxDepth : Nat := 127

/-- The value that fills a text, with the fields of objects in the order they are written. -/
def parseRaw? (text : String) : Option Json :=
  match readValue? maxDepth (skipBlank text.toList) with
  | some (v, rest) => if skipBlank rest = [] then some v else none
  | none => none

/-- The fields of an object that are complete in a text which starts behind its brace, up to where
the text stops being one. -/
def completeFields : Nat → List Char → JsonFields
  | 0, _ => []
  | fuel + 1, cs =>
    match readField? (readValue? (maxDepth - 1)) cs with
    | none => []
    | some (field, ',' :: rest) => field :: completeFields fuel rest
    | some (field, _) => [field]

/-- The value that fills a text, with the fields of objects in sorted order. -/
def parse? (text : String) : Option Json := (parseRaw? text).map sorted

end Json

end ProxyFleet

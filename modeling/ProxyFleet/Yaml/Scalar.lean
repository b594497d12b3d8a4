import ProxyFleet.Number.Binary64

/-!
# YAML scalars

How a text is written as a YAML scalar. It stays plain where it can; it is quoted where a reader
would take it for a number, a truth value or nothing at all, or where its characters mean something
to YAML; a text of several lines becomes a literal block.

* `Yaml.readsAsOther` : a plain text that would not be read as a text;
* `Yaml.style` : the style of a text;
* `Yaml.scalar` : the characters of a text in its style.
-/

namespace ProxyFleet.Yaml

set_option autoImplicit false

/-! ## Texts that read as something else -/

/-- Digits in the given base, at least one, below the bound. -/
def isNumberBelow (base bound : Nat) (cs : List Char) : Bool :=
  let value (c : Char) : Nat :=
    if c.isDigit then c.toNat - '0'.toNat
    else if 'a' ≤ c ∧ c ≤ 'z' then c.toNat - 'a'.toNat + 10
    else if 'A' ≤ c ∧ c ≤ 'Z' then c.toNat - 'A'.toNat + 10
    else base
  !cs.isEmpty && cs.all (fun c => value c < base) &&
    cs.foldl (fun n c => n * base + value c) 0 < bound

/-- A number with a mark for its base, or a decimal one, below the bound. -/
def isIntegerBelow (bound : Nat) : List Char → Bool
  | '0' :: 'x' :: rest => isNumberBelow 16 bound rest
  | '0' :: 'o' :: rest => isNumberBelow 8 bound rest
  | '0' :: 'b' :: rest => isNumberBelow 2 bound rest
  | cs => isNumberBelow 10 bound cs

/-- An integer of 128 bits: without a sign or after a plus an unsigned one, after a minus a signed
one. -/
def isInteger : List Char → Bool
  | '-' :: rest => isIntegerBelow (Nat.pow 2 127 + 1) rest
  | '+' :: rest => isIntegerBelow (Nat.pow 2 128) rest
  | cs => isIntegerBelow (Nat.pow 2 128) cs

/-- Digits that start with a zero, after an optional sign, are not a number but look like one. -/
def looksLikeNumber (cs : List Char) : Bool :=
  let digits := match cs with
    | '-' :: rest => rest
    | '+' :: rest => rest
    | _ => cs
  1 < digits.length && digits.head? == some '0' && digits.all Char.isDigit

/-- The value of decimal digits. -/
def digitsValue (cs : List Char) : Nat := cs.foldl (fun n c => n * 10 + (c.toNat - '0'.toNat)) 0

/-- A decimal number with a point, an exponent, both or neither, that a double can hold. -/
def isDecimal (cs : List Char) : Bool :=
  let cs := match cs with
    | '-' :: rest => rest
    | _ => cs
  let whole := cs.takeWhile Char.isDigit
  let rest := cs.drop whole.length
  let (fraction, rest) := match rest with
    | '.' :: rest => (rest.takeWhile Char.isDigit, rest.dropWhile Char.isDigit)
    | _ => ([], rest)
  let exponent : Option Int := match rest with
    | [] => some 0
    | e :: rest =>
      if e ≠ 'e' ∧ e ≠ 'E' then none
      else
        let (sign, digits) : Int × List Char := match rest with
          | '-' :: digits => (-1, digits)
          | '+' :: digits => (1, digits)
          | digits => (1, digits)
        if digits.isEmpty || !digits.all Char.isDigit then none
        else some (sign * digitsValue digits)
  match exponent with
  | none => false
  | some e =>
    let digits := whole ++ fraction
    let scale := e - fraction.length
    let value := digitsValue digits
    if digits.isEmpty then false
    else if value = 0 then true
    else if 400 < scale + digits.length then false
    else if scale + digits.length < -400 then true
    else (Binary64.ofRatio false (value * Nat.pow 10 scale.toNat) (Nat.pow 10 (-scale).toNat)).isFinite

/-- A floating point number. -/
def isFloat (cs : List Char) : Bool :=
  let unsigned := match cs with
    | '+' :: rest => if rest.head? = some '-' ∨ rest.head? = some '+' then [] else rest
    | _ => cs
  [".inf", ".Inf", ".INF"].contains (String.ofList unsigned) ||
    ["-.inf", "-.Inf", "-.INF", ".nan", ".NaN", ".NAN"].contains (String.ofList cs) ||
    isDecimal unsigned

/-- A plain scalar that would not be read as a text, or might not. -/
def readsAsOther (cs : List Char) : Bool :=
  ["", "~", "null", "Null", "NULL", "true", "True", "TRUE", "false", "False", "FALSE"].contains
    (String.ofList cs) || isInteger cs || looksLikeNumber cs || isFloat cs

/-! ## Characters -/

/-- A character that ends a line. -/
def isBreak (c : Char) : Bool :=
  c == '\n' || c == '\r' || c == '\u0085' || c == '\u2028' || c == '\u2029'

/-- A character that separates: a blank, a tab, a line end or a null. -/
def isSeparator (c : Char) : Bool := c == ' ' || c == '\t' || c == '\x00' || isBreak c

/-- A character that needs no escape. -/
def isPrintable (c : Char) : Bool :=
  let n := c.toNat
  n == 10 || (32 ≤ n && n ≤ 126) || (0xA0 ≤ n && n ≤ 0xD7FF) ||
    (0xE000 ≤ n && n ≤ 0xFFFD && n ≠ 0xFEFF) || 0x10000 ≤ n

/-- Whether what follows is separated: the end of the text or a separator. -/
def separated : List Char → Bool
  | [] => true
  | c :: _ => isSeparator c

/-- Whether two neighbours satisfy a test. -/
def anyAdjacent (test : Char → Char → Bool) : List Char → Bool
  | c :: d :: rest => test c d || anyAdjacent test (d :: rest)
  | _ => false

/-- A colon before a separator or a number sign after one, beyond the first character. -/
def innerIndicator (before : Char) : List Char → Bool
  | [] => false
  | c :: rest =>
    (c == ':' && separated rest) || (c == '#' && isSeparator before) || innerIndicator c rest

/-- Whether the characters of a text mean something to YAML in a plain scalar. -/
def hasIndicator (cs : List Char) : Bool :=
  match cs with
  | [] => false
  | c :: rest =>
    ['-', '-', '-'].isPrefixOf cs || ['.', '.', '.'].isPrefixOf cs ||
      "#,[]\x7b\x7d&*!|>'\"%@\x60".toList.contains c ||
      ((c == '?' || c == ':' || c == '-') && separated rest) || innerIndicator c rest

/-! ## Styles -/

/-- How a scalar is written. -/
inductive Style where
  | plain
  | singleQuoted
  | doubleQuoted
  | literal
  deriving DecidableEq

/-- Some character needs an escape, or a blank stands before a line end. -/
def needsEscape (cs : List Char) : Bool :=
  cs.any (!isPrintable ·) || anyAdjacent (fun c d => c == ' ' && isBreak d) cs

/-- A blank stands after a line end. -/
def hasIndentedLine (cs : List Char) : Bool := anyAdjacent (fun c d => isBreak c && d == ' ') cs

/-- Whether a text can be a plain scalar. -/
def plainAllowed (cs : List Char) : Bool :=
  !needsEscape cs && !hasIndentedLine cs && !cs.any isBreak && !hasIndicator cs &&
    cs.head? != some ' ' && cs.getLast? != some ' '

/-- The style of a text. -/
def style (cs : List Char) : Style :=
  if cs.contains '\n' then
    if needsEscape cs || cs.getLast? == some ' ' then .doubleQuoted else .literal
  else if !readsAsOther cs && plainAllowed cs then .plain
  else if needsEscape cs || hasIndentedLine cs then .doubleQuoted
  else .singleQuoted

/-! ## Writing -/

/-- Blanks of an indentation. -/
def blanks (n : Nat) : List Char := List.replicate n ' '

/-- A single-quoted text: a quote is written twice, and after a line end the text is indented. -/
def singleQuotedChars (indent : Nat) (afterBreak : Bool) : List Char → List Char
  | [] => if afterBreak then blanks indent else []
  | c :: rest =>
    if isBreak c then c :: singleQuotedChars indent true rest
    else
      (if afterBreak then blanks indent else []) ++ (if c = '\'' then ['\'', '\''] else [c]) ++
        singleQuotedChars indent false rest

/-- The hexadecimal digits of a code, filled up to a width. -/
def hexDigits (width n : Nat) : List Char :=
  let digits := (Nat.toDigits 16 n).map Char.toUpper
  List.replicate (width - digits.length) '0' ++ digits

/-- The escape of a character. -/
def escape (c : Char) : List Char :=
  let named := [(0x00, '0'), (0x07, 'a'), (0x08, 'b'), (0x09, 't'), (0x0A, 'n'), (0x0B, 'v'),
    (0x0C, 'f'), (0x0D, 'r'), (0x1B, 'e'), (0x22, '"'), (0x5C, '\\'), (0x85, 'N'), (0xA0, '_'),
    (0x2028, 'L'), (0x2029, 'P')]
  match named.find? (·.1 == c.toNat) with
  | some (_, mark) => ['\\', mark]
  | none =>
    if c.toNat ≤ 0xFF then '\\' :: 'x' :: hexDigits 2 c.toNat
    else if c.toNat ≤ 0xFFFF then '\\' :: 'u' :: hexDigits 4 c.toNat
    else '\\' :: 'U' :: hexDigits 8 c.toNat

/-- A character inside double quotes. -/
def doubleQuotedChar (c : Char) : List Char :=
  if !isPrintable c || isBreak c || c == '"' || c == '\\' then escape c else [c]

/-- The lines of a literal block, each indented. -/
def literalChars (indent : Nat) (afterBreak : Bool) : List Char → List Char
  | [] => []
  | c :: rest =>
    if isBreak c then c :: literalChars indent true rest
    else (if afterBreak then blanks indent else []) ++ c :: literalChars indent false rest

/-- The head of a literal block: whether its first line starts with a blank, and what becomes of
the line ends at its end. -/
def literalHead (cs : List Char) : List Char :=
  let first := match cs with
    | c :: _ => if c = ' ' ∨ isBreak c then ['2'] else []
    | [] => []
  let last := match cs.reverse with
    | c :: d :: _ => if !isBreak c then ['-'] else if isBreak d then ['+'] else []
    | [c] => if isBreak c then ['+'] else ['-']
    | [] => ['-']
  '|' :: (first ++ last)

/-- A literal block without the line end that closes it. -/
def literalBlock (indent : Nat) (cs : List Char) : List Char :=
  let body := literalChars indent true cs
  literalHead cs ++ '\n' :: (if cs.getLast? = some '\n' then body.dropLast else body)

/-- A text as a scalar whose further lines are indented. -/
def scalar (indent : Nat) (s : String) : List Char :=
  let cs := s.toList
  match style cs with
  | .plain => cs
  | .singleQuoted => '\'' :: (singleQuotedChars indent false cs ++ ['\''])
  | .doubleQuoted => '"' :: (cs.flatMap doubleQuotedChar ++ ['"'])
  | .literal => literalBlock indent cs

end ProxyFleet.Yaml

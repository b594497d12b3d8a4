import ProxyFleet.Json.Value
import ProxyFleet.Number.Shortest

/-!
# JSON text

`Json.compact` writes a value without blanks and `Json.pretty` over several lines with an
indentation of two blanks. Both escape the quote, the backslash and the control characters, and
leave every other character as it is.
-/

namespace ProxyFleet

set_option autoImplicit false

namespace Json

/-- One hexadecimal digit in lower case. -/
def hexDigit (n : Nat) : Char := Nat.digitChar (n % 16)

/-- A character inside a quoted text. -/
def escapeChar (c : Char) : List Char :=
  if c = '"' then ['\\', '"']
  else if c = '\\' then ['\\', '\\']
  else if c = '\n' then ['\\', 'n']
  else if c = '\r' then ['\\', 'r']
  else if c = '\t' then ['\\', 't']
  else if c = '\x08' then ['\\', 'b']
  else if c = '\x0c' then ['\\', 'f']
  else if c.toNat < 32 then ['\\', 'u', '0', '0', hexDigit (c.toNat / 16), hexDigit c.toNat]
  else [c]

/-- A text in quotes. -/
def quotedChars (s : String) : List Char := '"' :: (s.toList.flatMap escapeChar ++ ['"'])

/-- The text of a number. -/
def numberChars : JsonNumber → List Char
  | .int i => (toString i).toList
  | .float x => x.jsonText.toList

mutual

/-- The characters of a value without blanks. -/
def compactChars : Json → List Char
  | .null => "null".toList
  | .bool true => "true".toList
  | .bool false => "false".toList
  | .num n => numberChars n
  | .str s => quotedChars s
  | .arr items => '[' :: (compactItems items ++ [']'])
  | .obj fields => '{' :: (compactFields fields ++ ['}'])

/-- Items with commas between them. -/
def compactItems : List Json → List Char
  | [] => []
  | v :: [] => compactChars v
  | v :: w :: rest => compactChars v ++ ',' :: compactItems (w :: rest)

/-- Fields with commas between them. -/
def compactFields : JsonFields → List Char
  | [] => []
  | (k, v) :: [] => quotedChars k ++ ':' :: compactChars v
  | (k, v) :: f :: rest => quotedChars k ++ ':' :: (compactChars v ++ ',' :: compactFields (f :: rest))

end

/-- A line break and the blanks of an indentation. -/
def lineBreak (depth : Nat) : List Char := '\n' :: List.replicate (2 * depth) ' '

mutual

/-- The characters of a value over several lines, its own lines indented by `depth`. -/
def prettyChars (depth : Nat) : Json → List Char
  | .null => "null".toList
  | .bool true => "true".toList
  | .bool false => "false".toList
  | .num n => numberChars n
  | .str s => quotedChars s
  | .arr [] => ['[', ']']
  | .arr (v :: rest) => '[' :: (prettyItems (depth + 1) (v :: rest) ++ lineBreak depth ++ [']'])
  | .obj [] => ['{', '}']
  | .obj (f :: rest) => '{' :: (prettyFields (depth + 1) (f :: rest) ++ lineBreak depth ++ ['}'])

/-- Items, each on a line of its own. -/
def prettyItems (depth : Nat) : List Json → List Char
  | [] => []
  | v :: [] => lineBreak depth ++ prettyChars depth v
  | v :: w :: rest => lineBreak depth ++ prettyChars depth v ++ ',' :: prettyItems depth (w :: rest)

/-- Fields, each on a line of its own. -/
def prettyFields (depth : Nat) : JsonFields → List Char
  | [] => []
  | (k, v) :: [] => lineBreak depth ++ quotedChars k ++ ':' :: ' ' :: prettyChars depth v
  | (k, v) :: f :: rest =>
    lineBreak depth ++ quotedChars k ++ ':' :: ' ' ::
      (prettyChars depth v ++ ',' :: prettyFields depth (f :: rest))

end

/-- The text of a value without blanks. -/
def compact (v : Json) : String := String.ofList (compactChars v)

/-- The text of a value over several lines. -/
def pretty (v : Json) : String := String.ofList (prettyChars 0 v)

end Json

end ProxyFleet

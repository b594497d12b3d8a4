/-!
# Quoted text in messages

`Text.quoted` shows a text between quotes in a message: the quote, the backslash and what does not
print are escaped, the rest stays.
-/

namespace ProxyFleet.Text

set_option autoImplicit false

/-- Code points outside ASCII that have no shape of their own: controls, format characters,
separators, surrogate and private areas, and marks that combine with what stands before them. -/
def shapelessRanges : List (Nat × Nat) :=
  [(0x80, 0xA0), (0xAD, 0xAD), (0x300, 0x36F), (0x483, 0x489), (0x591, 0x5BD), (0x610, 0x61A),
   (0x61C, 0x61C), (0x64B, 0x65F), (0x6DD, 0x6DD), (0x180E, 0x180E), (0x1AB0, 0x1AFF),
   (0x1DC0, 0x1DFF), (0x2000, 0x200F), (0x2028, 0x202F), (0x205F, 0x206F), (0x20D0, 0x20F0),
   (0x3000, 0x3000), (0x302A, 0x302F), (0x3099, 0x309A), (0xE000, 0xF8FF), (0xFE00, 0xFE0F),
   (0xFE20, 0xFE2F), (0xFEFF, 0xFEFF), (0xFFF0, 0xFFFB), (0xFFFE, 0xFFFF), (0xE0001, 0xE0FFF),
   (0xF0000, 0x10FFFF)]

/-- Whether a character is shown by its code. -/
def isShapeless (c : Char) : Bool :=
  c.toNat < 32 || c.toNat == 127 || shapelessRanges.any fun (low, high) => low ≤ c.toNat && c.toNat ≤ high

/-- A character inside quotes. -/
def quotedChar (c : Char) : List Char :=
  if c = '"' then ['\\', '"']
  else if c = '\\' then ['\\', '\\']
  else if c = '\n' then ['\\', 'n']
  else if c = '\r' then ['\\', 'r']
  else if c = '\t' then ['\\', 't']
  else if c = '\x00' then ['\\', '0']
  else if isShapeless c then "\\u\x7b".toList ++ Nat.toDigits 16 c.toNat ++ ['}']
  else [c]

/-- A text between quotes, with escapes. -/
def quoted (s : String) : String :=
  String.ofList ('"' :: (s.toList.flatMap quotedChar ++ ['"']))

end ProxyFleet.Text

/-!
# Letter case

* `Text.lower` : the ASCII letters in lower case;
* `Text.foldName` : the lower case of a text as far as an ASCII name can tell, which adds the one
  sign outside ASCII whose lower case is an ASCII letter.
-/

namespace ProxyFleet.Text

set_option autoImplicit false

/-- A text with its ASCII letters in lower case. -/
def lower (s : String) : String := String.ofList (s.toList.map Char.toLower)

/-- The lower case of a character where it is an ASCII letter: the Kelvin sign has the lower case
of `K`. -/
def foldChar (c : Char) : Char := if c = '\u212A' then 'k' else c.toLower

/-- A text for comparison with an ASCII name in lower case. -/
def foldName (s : String) : String := String.ofList (s.toList.map foldChar)

/-- Whether `part` occurs in `whole`. -/
def occursIn (part : List Char) : List Char → Bool
  | [] => part.isEmpty
  | c :: rest => part.isPrefixOf (c :: rest) || occursIn part rest

/-- Whether a text occurs inside another. -/
def contains (whole part : String) : Bool := occursIn part.toList whole.toList

/-- The pieces of a text between the occurrences of a character; a text without it is one piece. -/
def splitChars (sep : Char) : List Char → List (List Char)
  | [] => [[]]
  | c :: rest =>
    match splitChars sep rest with
    | [] => []
    | piece :: pieces => if c = sep then [] :: piece :: pieces else (c :: piece) :: pieces

/-- The pieces of a text between the occurrences of a character. -/
def split (sep : Char) (s : String) : List String := (splitChars sep s.toList).map String.ofList

/-- What stands before and after the first occurrence of a character. -/
def splitOnce? (sep : Char) : List Char → Option (List Char × List Char)
  | [] => none
  | c :: rest =>
    if c = sep then some ([], rest)
    else (splitOnce? sep rest).map fun (before, after) => (c :: before, after)

/-- A text filled up with blanks to a width in characters; a longer text stays as it is. -/
def padRight (width : Nat) (s : String) : String :=
  s ++ String.ofList (List.replicate (width - s.length) ' ')

/-- A text filled up with blanks in front to a width in characters. -/
def padLeft (width : Nat) (s : String) : String :=
  String.ofList (List.replicate (width - s.length) ' ') ++ s

end ProxyFleet.Text

import ProxyFleet.Text.Letters
import ProxyFleet.Text.Percent

/-!
# What a server sees of an address

`Net.requestTarget?` is the path and the query that are sent for an `http` address: segments of one
or two points are resolved, and characters that cannot stand in an address are percent encoded.
-/

namespace ProxyFleet.Net

set_option autoImplicit false

/-- A segment that stands for the directory it is in. -/
def isSingleDot (cs : List Char) : Bool :=
  ["." , "%2e"].contains (Text.lower (String.ofList cs))

/-- A segment that stands for the directory above. -/
def isDoubleDot (cs : List Char) : Bool :=
  ["..", ".%2e", "%2e.", "%2e%2e"].contains (Text.lower (String.ofList cs))

/-- The segments of a path with the points resolved. A last segment of points leaves an empty one,
so that the path still ends with a slash. -/
def resolveSegments : List (List Char) → List (List Char) → List (List Char)
  | done, [] => done
  | done, [last] =>
    if isDoubleDot last then done.dropLast ++ [[]]
    else if isSingleDot last then done ++ [[]]
    else done ++ [last]
  | done, segment :: rest =>
    if isDoubleDot segment then resolveSegments done.dropLast rest
    else if isSingleDot segment then resolveSegments done rest
    else resolveSegments (done ++ [segment]) rest

/-- A character in percent encoding if it is not printable ASCII or among the given ones. -/
def encodeUnless (special : List Char) (c : Char) : List Char :=
  if c.toNat ≤ 32 ∨ 126 < c.toNat ∨ special.contains c then
    (Text.utf8 (String.singleton c)).flatMap fun b =>
      ['%', Text.upperHexDigit (b.toNat / 16), Text.upperHexDigit b.toNat]
  else [c]

/-- A slash between segments; a backslash counts as one. -/
def isSlash (c : Char) : Bool := c = '/' || c = '\\'

/-- The segments of a path that starts with a slash. -/
def readSegments (cs : List Char) : List (List Char) :=
  (Text.splitChars '/' (cs.map fun c => if isSlash c then '/' else c)).drop 1

/-- Segments as they are sent, each with a slash before it. -/
def writeSegments (segments : List (List Char)) : List Char :=
  segments.flatMap fun segment =>
    '/' :: segment.flatMap (encodeUnless ['"', '#', '<', '>', '?', '\x60', '\x7b', '\x7d'])

/-- A path as it is sent. -/
def encodePath (cs : List Char) : List Char := writeSegments (resolveSegments [] (readSegments cs))

/-- A query as it is sent. -/
def encodeQuery (cs : List Char) : List Char :=
  cs.flatMap (encodeUnless ['"', '#', '<', '>', '\''])

/-- A control character or a blank. -/
def isControl (c : Char) : Bool := c.toNat ≤ 32

/-- A line break or a tab. -/
def isBreak (c : Char) : Bool := c = '\t' || c = '\n' || c = '\r'

/-- What of an address counts: no control characters or blanks at its ends, and no line breaks or
tabs anywhere. -/
def stripped (s : String) : List Char :=
  ((s.toList.dropWhile isControl).reverse.dropWhile isControl).reverse.filter (!isBreak ·)

/-- A text after a scheme, in whatever letter case that is written. -/
def afterScheme? (scheme : String) (cs : List Char) : Option (List Char) :=
  if Text.lower (String.ofList (cs.take scheme.length)) = scheme then some (cs.drop scheme.length) else none

/-- An `http` address from its host on, whatever number of slashes there is before that; none of any
other text. -/
def fromHost? (cs : List Char) : Option (List Char) :=
  ((afterScheme? "http:" cs).or (afterScheme? "https:" cs)).map (·.dropWhile isSlash)

/-- A character that ends the host. -/
def endsHost (c : Char) : Bool := isSlash c || c = '?' || c = '#'

/-- Path and query of an address from its host on, if there is a host. What the host is made of is not
looked at. -/
def targetFromHost? (cs : List Char) : Option (List Char) :=
  let host := cs.takeWhile (!endsHost ·)
  let rest := (cs.dropWhile (!endsHost ·)).takeWhile (· ≠ '#')
  let path := rest.takeWhile (· ≠ '?')
  let query := rest.dropWhile (· ≠ '?')
  if host.isEmpty then none
  else some ((if path.isEmpty then ['/'] else encodePath path) ++ encodeQuery query)

/-- Path and query of an `http` address as they are sent; none of any other text. -/
def requestTarget? (url : String) : Option String :=
  ((fromHost? (stripped url)).bind targetFromHost?).map String.ofList

end ProxyFleet.Net

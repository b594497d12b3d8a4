import ProxyFleet.Yaml.Scalar

/-!
# YAML documents

A document of maps, lists and scalars in block style. The items of a list stand under the key that
holds them, without further indentation; an empty list or map is written in brackets.
-/

namespace ProxyFleet

set_option autoImplicit false

/-- A YAML value. -/
inductive Yaml where
  | text (s : String)
  | number (n : Nat)
  | bool (b : Bool)
  | list (items : List Yaml)
  | map (fields : List (String × Yaml))
  deriving Inhabited

namespace Yaml

/-- The fields of a map, where a value may be absent. -/
abbrev Fields := List (String × Yaml)

/-- A list of texts. -/
def texts (ss : List String) : Yaml := .list (ss.map .text)

/-- A field, where its value is present. -/
def field? (key : String) (value : Option Yaml) : Fields := (value.map (key, ·)).toList

mutual

/-- What follows a key whose map is indented by `indent`. -/
def valueChars (indent : Nat) : Yaml → List Char
  | .text s => ' ' :: scalar (indent + 2) s
  | .number n => ' ' :: (toString n).toList
  | .bool b => ' ' :: (toString b).toList
  | .list [] => [' ', '[', ']']
  | .list (v :: rest) => itemsChars indent (v :: rest)
  | .map [] => [' ', '{', '}']
  | .map (f :: rest) => fieldsChars (indent + 2) (f :: rest)

/-- The items of a list, each on lines of its own after a hyphen. -/
def itemsChars (indent : Nat) : List Yaml → List Char
  | [] => []
  | v :: rest => '\n' :: (blanks indent ++ '-' :: itemChars indent v) ++ itemsChars indent rest

/-- What follows the hyphen of an item. -/
def itemChars (indent : Nat) : Yaml → List Char
  | .map ((k, v) :: rest) =>
    ' ' :: (scalar (indent + 2) k ++ ':' :: valueChars (indent + 2) v) ++ fieldsChars (indent + 2) rest
  | .map [] => [' ', '{', '}']
  | .list [] => [' ', '[', ']']
  | .list (v :: rest) => ' ' :: '-' :: itemChars (indent + 2) v ++ itemsChars (indent + 2) rest
  | .text s => ' ' :: scalar (indent + 2) s
  | .number n => ' ' :: (toString n).toList
  | .bool b => ' ' :: (toString b).toList

/-- The fields of a map, each on lines of its own. -/
def fieldsChars (indent : Nat) : List (String × Yaml) → List Char
  | [] => []
  | (k, v) :: rest =>
    '\n' :: (blanks indent ++ scalar indent k ++ ':' :: valueChars indent v) ++ fieldsChars indent rest

end

/-- The text of a document that is a map. -/
def document (fields : Fields) : String :=
  String.ofList ((fieldsChars 0 fields).drop 1 ++ ['\n'])

end Yaml

end ProxyFleet

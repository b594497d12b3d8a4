import ProxyFleet.Toml.Token

/-!
# Configuration texts

A configuration text is a list of lines: keys with values, and headers that say in which table the
keys below them are. `Toml.parse?` reads it into an object.

* `Entry` : what a key of a table under construction stands for;
* `Entry.assign?` : give a value to a path of keys, as `a.b = 1` does;
* `Entry.open?`, `Entry.append?` : start a table, as `[a]` does, or one of several, as `[[a]]` does.

Every table is defined in one place only: by a header, or by the keys of the table around it.
-/

namespace ProxyFleet.Toml

set_option autoImplicit false

/-- How a table came to be. -/
inductive Origin where
  /-- By a header of its own. -/
  | header
  /-- By the header of a table inside it. -/
  | implied
  /-- By keys with points between them. -/
  | dotted
  deriving DecidableEq

/-- What a key stands for. -/
inductive Entry where
  | value (v : Json)
  | table (origin : Origin) (entries : List (String × Entry))
  | tables (items : List (List (String × Entry)))

/-- A table under construction. -/
abbrev Entries := List (String × Entry)

mutual

/-- The value of an entry. -/
def Entry.toJson : Entry → Json
  | .value v => v
  | .table _ entries => .obj (entriesFields entries)
  | .tables items => .arr (entriesItems items)

/-- The fields of a table. -/
def entriesFields : List (String × Entry) → JsonFields
  | [] => []
  | (key, e) :: rest => (key, e.toJson) :: entriesFields rest

/-- Each of several tables as an object. -/
def entriesItems : List (List (String × Entry)) → List Json
  | [] => []
  | entries :: rest => .obj (entriesFields entries) :: entriesItems rest

end

namespace Entries

/-- What a key of a table stands for. -/
def get? (t : Entries) (key : String) : Option Entry := (t.find? (·.1 == key)).map (·.2)

/-- The table in which a key stands for an entry. -/
def set (t : Entries) (key : String) (e : Entry) : Entries :=
  if t.any (·.1 == key) then t.map fun (k, old) => if k == key then (k, e) else (k, old)
  else t ++ [(key, e)]

/-- Give a value to a path of keys. The tables on the way are made where they are missing; those
that a header has made are closed to paths from elsewhere. -/
def assign? (value : Json) : List String → Entries → Option Entries
  | [], _ => none
  | [key], t => if (t.get? key).isSome then none else some (t.set key (.value value))
  | key :: rest, t =>
    match t.get? key with
    | none => (assign? value rest []).map fun inner => t.set key (.table .dotted inner)
    | some (.table .dotted inner) => (assign? value rest inner).map fun inner => t.set key (.table .dotted inner)
    | some (.table .implied inner) =>
      if rest.length = 1 then none
      else (assign? value rest inner).map fun inner => t.set key (.table .implied inner)
    | some (.table .header _) => none
    | some (.tables items) =>
      if rest.length = 1 then none
      else
        match items.getLast? with
        | none => none
        | some inner => (assign? value rest inner).map fun inner => t.set key (.tables (items.dropLast ++ [inner]))
    | some (.value _) => none

/-- Change the table that a path of headers leads to; of several tables under one key that is the
last. -/
def within? (change : Entries → Option Entries) : List String → Entries → Option Entries
  | [], t => change t
  | key :: rest, t =>
    match t.get? key with
    | none => (within? change rest []).map fun inner => t.set key (.table .implied inner)
    | some (.table origin inner) => (within? change rest inner).map fun inner => t.set key (.table origin inner)
    | some (.tables items) =>
      match items.getLast? with
      | none => none
      | some inner => (within? change rest inner).map fun inner => t.set key (.tables (items.dropLast ++ [inner]))
    | some (.value _) => none

/-- Start the table of a key, which may so far only be implied by the tables inside it. -/
def open? (key : String) (t : Entries) : Option Entries :=
  match t.get? key with
  | none => some (t.set key (.table .header []))
  | some (.table .implied inner) => some (t.set key (.table .header inner))
  | _ => none

/-- Start one more of the tables under a key. -/
def append? (key : String) (t : Entries) : Option Entries :=
  match t.get? key with
  | none => some (t.set key (.tables [[]]))
  | some (.tables items) => some (t.set key (.tables (items ++ [[]])))
  | _ => none

end Entries

/-! ## Values -/

/-- The items of an array up to its closing bracket, each read by `value`. -/
def readItems? (value : List Char → Option (Json × List Char)) :
    Nat → List Char → Option (List Json × List Char)
  | 0, _ => none
  | fuel + 1, cs =>
    match skipLines? cs.length cs with
    | some (']' :: rest) => some ([], rest)
    | some cs =>
      match value cs with
      | none => none
      | some (v, rest) =>
        match skipLines? rest.length rest with
        | some (',' :: rest) => (readItems? value fuel rest).map fun (vs, after) => (v :: vs, after)
        | some (']' :: rest) => some ([v], rest)
        | _ => none
    | none => none

/-- A path of keys with its value, which blanks may surround. -/
def readPair? (value : List Char → Option (Json × List Char)) (cs : List Char) :
    Option ((List String × Json) × List Char) :=
  match readKey? maxDepth cs with
  | some (path, '=' :: rest) => (value (skipBlank rest)).map fun (v, after) => ((path, v), skipBlank after)
  | _ => none

/-- The keys and values of a table on one line up to its closing brace; at least one. -/
def readPairs? (value : List Char → Option (Json × List Char)) :
    Nat → List Char → Option (List (List String × Json) × List Char)
  | 0, _ => none
  | fuel + 1, cs =>
    match readPair? value cs with
    | none => none
    | some (pair, ',' :: rest) => (readPairs? value fuel rest).map fun (pairs, after) => (pair :: pairs, after)
    | some (pair, '}' :: rest) => some ([pair], rest)
    | some _ => none

/-- The object of keys and values on one line. -/
def inlineTable? (pairs : List (List String × Json)) : Option Json :=
  (pairs.foldlM (fun t (path, v) => Entries.assign? v path t) ([] : Entries)).map fun t =>
    .obj (entriesFields t)

/-- A value that holds no other. -/
def readScalar? (cs : List Char) : Option (Json × List Char) :=
  match cs with
  | '"' :: _ | '\'' :: _ => (readQuoted? cs).map fun (s, rest) => (.str s, rest)
  | 't' :: rest => (Json.skipExactly? "rue".toList rest).map (.bool true, ·)
  | 'f' :: rest => (Json.skipExactly? "alse".toList rest).map (.bool false, ·)
  | _ => if startsDate cs || startsTime cs then readMoment? cs else readNumber? cs

/-- A value that nests at most `depth` arrays and tables. -/
def readValue? : Nat → List Char → Option (Json × List Char)
  | 0, cs =>
    match cs with
    | '[' :: _ => none
    | '{' :: _ => none
    | _ => readScalar? cs
  | depth + 1, cs =>
    match cs with
    | '[' :: rest =>
      (readItems? (readValue? depth) (rest.length + 1) rest).map fun (vs, after) => (.arr vs, after)
    | '{' :: rest =>
      match skipBlank rest with
      | '}' :: after => some (.obj [], after)
      | rest => (readPairs? (readValue? depth) (rest.length + 1) rest).bind fun (pairs, after) =>
        (inlineTable? pairs).map (·, after)
    | _ => readScalar? cs

/-! ## Lines -/

/-- The document so far, and the table in which keys are now. -/
structure State where
  root : Entries := []
  current : List String := []

/-- A header: the path of its table, whether there are several such tables, and the rest. -/
def readHeader? (cs : List Char) : Option ((List String × Bool) × List Char) :=
  match cs with
  | '[' :: '[' :: rest =>
    match readKey? maxDepth rest with
    | some (path, ']' :: ']' :: rest) => (skipLineEnd? rest).map ((path, true), ·)
    | _ => none
  | '[' :: rest =>
    match readKey? maxDepth rest with
    | some (path, ']' :: rest) => (skipLineEnd? rest).map ((path, false), ·)
    | _ => none
  | _ => none

/-- The document after a header. -/
def State.enter? (s : State) (path : List String) (several : Bool) : Option State :=
  match path.getLast? with
  | none => none
  | some key =>
    let start := if several then Entries.append? key else Entries.open? key
    (Entries.within? start path.dropLast s.root).map fun root => ⟨root, path⟩

/-- The document after a key with its value. -/
def State.assign? (s : State) (path : List String) (v : Json) : Option State :=
  (Entries.within? (Entries.assign? v path) s.current s.root).map fun root => { s with root }

/-- The document after the lines of a text, at most `fuel` of them. -/
def readLines? : Nat → State → List Char → Option State
  | 0, s, _ => some s
  | fuel + 1, s, cs =>
    match skipBlank cs with
    | [] => some s
    | '[' :: rest =>
      (readHeader? ('[' :: rest)).bind fun ((path, several), rest) =>
        (s.enter? path several).bind fun s => readLines? fuel s rest
    | c :: rest =>
      if c = '#' ∨ c = '\n' ∨ c = '\r' then (skipLineEnd? (c :: rest)).bind (readLines? fuel s)
      else
        (readPair? (readValue? maxDepth) (c :: rest)).bind fun ((path, v), rest) =>
          (skipLineEnd? rest).bind fun rest => (s.assign? path v).bind fun s => readLines? fuel s rest

/-- The object that a configuration text describes. A mark of byte order in front counts for
nothing. -/
def parse? (text : String) : Option Json :=
  let cs := match text.toList with
    | '\ufeff' :: rest => rest
    | cs => cs
  (readLines? (cs.length + 1) {} cs).map fun s => .obj (entriesFields s.root)

end ProxyFleet.Toml

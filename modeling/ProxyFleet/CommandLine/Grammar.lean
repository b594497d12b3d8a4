import ProxyFleet.Text.Decimal
import ProxyFleet.Text.Letters

/-!
# Words on a command line

A `CommandSpec` says which options, arguments and subcommands a command takes. `CommandSpec.parse`
reads the words of a command line by it.

* an option is written `--name value`, `--name=value`, `-n value`, `-n=value` or `-nvalue`, and
  only once;
* a word that starts with a hyphen is never a value of its own, except for the hyphen alone and
  behind `--`;
* the first word that cannot be read, or asks for help, ends the reading.
-/

namespace ProxyFleet

set_option autoImplicit false

/-- What a value has to be. -/
inductive ValueKind where
  | text
  | integer
  | port
  deriving DecidableEq

/-- A value that was read. -/
inductive ArgValue where
  | text (s : String)
  | int (i : Int)
  deriving DecidableEq

/-- The value of a word, if it is of a kind. -/
def ValueKind.read? : ValueKind → String → Option ArgValue
  | text, s => some (.text s)
  | integer, s => (Text.i64? s).map .int
  | port, s => (Text.intOf? 0 65535 s).map .int

/-- An option of a command. -/
structure OptionSpec where
  name : String
  short : Option Char := none
  kind : ValueKind := .text
  required : Bool := false
  default? : Option String := none
  about : String := ""

/-- An argument of a command, by its place. -/
structure ArgumentSpec where
  name : String
  kind : ValueKind := .text
  about : String := ""

/-- A command. -/
structure CommandSpec where
  name : String
  about : String
  options : List OptionSpec := []
  arguments : List ArgumentSpec := []
  subcommands : List CommandSpec := []
  /-- One of the subcommands has to be given. -/
  needsSubcommand : Bool := false

/-- Why a command line is not carried out. -/
inductive Interruption where
  /-- Help on the command that these words name was asked for. -/
  | help (path : List String)
  | version
  | unexpected (word : String)
  | invalidValue (word name : String)
  | missingValue (name : String)
  | repeated (name : String)
  | missing (name : String)
  | missingSubcommand (path : List String)

/-- What a command line says. -/
structure Invocation where
  path : List String := []
  options : List (String × ArgValue) := []
  arguments : List ArgValue := []

namespace CommandSpec

/-- The option of a name. -/
def option? (c : CommandSpec) (name : String) : Option OptionSpec := c.options.find? (·.name == name)

/-- The option of a letter. -/
def shortOption? (c : CommandSpec) (letter : Char) : Option OptionSpec :=
  c.options.find? (·.short == some letter)

/-- The subcommand of a name. -/
def subcommand? (c : CommandSpec) (name : String) : Option CommandSpec :=
  c.subcommands.find? (·.name == name)

/-- The command that words name. -/
def find? (c : CommandSpec) : List String → Option CommandSpec
  | [] => some c
  | name :: rest => (c.subcommand? name).bind (find? · rest)

/-- An option with its value. -/
def give (inv : Invocation) (o : OptionSpec) (word : String) : Except Interruption Invocation :=
  if inv.options.any (·.1 == o.name) then .error (.repeated o.name)
  else
    match o.kind.read? word with
    | some v => .ok { inv with options := inv.options ++ [(o.name, v)] }
    | none => .error (.invalidValue word o.name)

/-- The next argument. -/
def giveNext (c : CommandSpec) (inv : Invocation) (word : String) : Except Interruption Invocation :=
  match c.arguments[inv.arguments.length]? with
  | none => .error (.unexpected word)
  | some a =>
    match a.kind.read? word with
    | some v => .ok { inv with arguments := inv.arguments ++ [v] }
    | none => .error (.invalidValue word a.name)

/-- A word that has the form of an option. -/
def isFlag (word : String) : Bool := word.startsWith "-" && word != "-"

/-- Options with a default are filled in, and those that have to be there are. -/
def fillOptions (c : CommandSpec) (inv : Invocation) : Except Interruption Invocation :=
  c.options.foldlM (fun inv o =>
    if inv.options.any (·.1 == o.name) then .ok inv
    else
      match o.default? with
      | some word => give inv o word
      | none => if o.required then .error (.missing o.name) else .ok inv) inv

/-- What is left to check when the words of a command are all read. -/
def complete (c : CommandSpec) (inv : Invocation) : Except Interruption Invocation :=
  if c.needsSubcommand then .error (.missingSubcommand inv.path)
  else
    match c.arguments[inv.arguments.length]? with
    | some a => .error (.missing a.name)
    | none => c.fillOptions inv

/-- How an option is written that a word stands for, and the value written with it. -/
def optionOf (c : CommandSpec) (atRoot : Bool) (path : List String) (word : String) :
    Except Interruption (OptionSpec × Option String) :=
  match word.toList with
  | '-' :: '-' :: rest =>
    let (name, value) := match Text.splitOnce? '=' rest with
      | some (name, value) => (String.ofList name, some (String.ofList value))
      | none => (String.ofList rest, none)
    if name = "help" ∧ value.isNone then .error (.help path)
    else if name = "version" ∧ atRoot ∧ value.isNone then .error .version
    else
      match c.option? name with
      | some o => .ok (o, value)
      | none => .error (.unexpected word)
  | _ :: letter :: rest =>
    if letter = 'h' then .error (.help path)
    else if letter = 'V' ∧ atRoot then .error .version
    else
      match c.shortOption? letter, rest with
      | none, _ => .error (.unexpected word)
      | some o, [] => .ok (o, none)
      | some o, '=' :: value => .ok (o, some (String.ofList value))
      | some o, value => .ok (o, some (String.ofList value))
  | _ => .error (.unexpected word)

/-- Read words as a command. -/
def read (c : CommandSpec) (inv : Invocation) : Bool → List String → Except Interruption Invocation
  | _, [] => c.complete inv
  | true, word :: rest => do read c (← c.giveNext inv word) true rest
  | false, word :: rest =>
    if word = "--" then read c inv true rest
    else if isFlag word then
      match c.optionOf inv.path.isEmpty inv.path word with
      | .error e => .error e
      | .ok (o, some value) => do read c (← give inv o value) false rest
      | .ok (o, none) =>
        match rest with
        | [] => .error (.missingValue o.name)
        | value :: rest =>
          if isFlag value then .error (.missingValue o.name)
          else do read c (← give inv o value) false rest
    else
      match c.subcommands.find? (·.name == word) with
      | some sub =>
        do read sub { (← c.fillOptions inv) with path := inv.path ++ [word] } false rest
      | none =>
        if word = "help" ∧ !c.subcommands.isEmpty then
          match c.find? rest with
          | some _ => .error (.help (inv.path ++ rest))
          | none => .error (.unexpected word)
        else do read c (← c.giveNext inv word) false rest
termination_by _ words => words.length

/-- Read the words of a command line. -/
def parse (c : CommandSpec) (words : List String) : Except Interruption Invocation :=
  c.read {} false words

end CommandSpec

namespace Invocation

/-- The text that an option was given. -/
def text? (inv : Invocation) (name : String) : Option String :=
  match inv.options.lookup name with
  | some (.text s) => some s
  | _ => none

/-- The integer that an option was given. -/
def int? (inv : Invocation) (name : String) : Option Int :=
  match inv.options.lookup name with
  | some (.int i) => some i
  | _ => none

end Invocation

end ProxyFleet

import ProxyFleet.CommandLine.Grammar

/-!
# Help on commands

`CommandSpec.help` is the text that a command shows on its use: what it does, how it is called, and
its subcommands, arguments and options, each with what it is for.
-/

namespace ProxyFleet

set_option autoImplicit false

namespace CommandSpec

/-- The name under which a value is shown. -/
def valueName (name : String) : String :=
  "<" ++ String.ofList (name.toList.map fun c => if c = '-' then '_' else c.toUpper) ++ ">"

/-- An option as it is written. -/
def optionForm (o : OptionSpec) : String :=
  let short := match o.short with
    | some letter => s!"-{letter}, "
    | none => "    "
  s!"{short}--{o.name} {valueName o.name}"

/-- What an option is for, and the value that it has unless it is given. -/
def optionAbout (o : OptionSpec) : String :=
  match o.default? with
  | none => o.about
  | some d => if o.about.isEmpty then s!"[default: {d}]" else s!"{o.about} [default: {d}]"

/-- Rows of two columns under a title; nothing for no rows. -/
def helpRows (title : String) (rows : List (String × String)) : String :=
  let width := (rows.map (·.1.length)).foldl max 0
  if rows.isEmpty then ""
  else
    rows.foldl (fun text (form, about) => text ++ "  " ++ Text.padRight width form ++ "  " ++ about ++ "\n")
      ("\n" ++ title ++ ":\n")

/-- How a command is called. -/
def usage (c : CommandSpec) (called : String) : String :=
  let required := (c.options.filter (·.required)).map fun o => s!" --{o.name} {valueName o.name}"
  let optional := if c.options.all (·.required) then "" else " [OPTIONS]"
  let arguments := c.arguments.map fun a => " " ++ valueName a.name
  let subcommand :=
    if c.subcommands.isEmpty then "" else if c.needsSubcommand then " <COMMAND>" else " [COMMAND]"
  "Usage: " ++ called ++ optional ++ String.join required ++ String.join arguments ++ subcommand

/-- The help on a command; the program alone also has a version. -/
def help (c : CommandSpec) (path : List String) : String :=
  let atRoot := path.length = 1
  let subcommands := c.subcommands.map fun sub => (sub.name, sub.about)
  let helpCommand := ("help", "Print this message or the help of the given subcommand(s)")
  let version := if atRoot then [("-V, --version", "Print version")] else []
  c.about ++ "\n\n" ++ c.usage (" ".intercalate path) ++ "\n"
    ++ helpRows "Commands" (if subcommands.isEmpty then [] else subcommands ++ [helpCommand])
    ++ helpRows "Arguments" (c.arguments.map fun a => (valueName a.name, a.about))
    ++ helpRows "Options" ((c.options.map fun o => (optionForm o, optionAbout o))
      ++ [("-h, --help", "Print help")] ++ version)

end CommandSpec

end ProxyFleet

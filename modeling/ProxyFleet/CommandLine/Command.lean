import ProxyFleet.CommandLine.Help
import ProxyFleet.Identity

/-!
# The commands

`commandSpec` describes the command line of the service, and `Command.ofWords` reads one: the path of
the configuration file, and what is to be done.
-/

namespace ProxyFleet

set_option autoImplicit false

/-- What is to be done. -/
inductive Command where
  | serve (host : Option String) (port : Option Int)
  | checkSettings
  | listPorts
  | showPort (port : UInt16)
  | portHistory (port : UInt16) (limit : Int)
  | portStats
  | scanPorts
  | cleanPorts (days : Int)
  | listNodes
  | showNode (id : Int)
  | nodeConfig (id : Int)
  | nodeHistory (id limit : Int)
  | nodeStatus (id : Int)
  | nodeUser (id : Int) (uuid : String)
  | deleteNode (id : Int)
  | addUser (group : Option Int) (quotaGib : Int) (days : Option Int)
  | listUsers
  | userStats (id : Int)
  | protocols
  | render (user : Int) (format : String)
  | makeKey (method : String)

/-! ## Description -/

/-- Where the configuration file is unless another path is given. -/
def defaultSettingsPath : String := "/etc/nodeplane/config.toml"

/-- The option for how many rows are shown. -/
def limitOption : OptionSpec :=
  { name := "limit", short := some 'l', kind := .integer, default? := some "20" }

/-- The argument that names a node or a user. -/
def idArgument : ArgumentSpec := { name := "id", kind := .integer }

/-- The argument that names a port. -/
def portArgument : ArgumentSpec := { name := "port", kind := .port }

/-- The commands on ports. -/
def portCommands : List CommandSpec := [
  { name := "list", about := "List active allocations" },
  { name := "show", about := "Show a single port", arguments := [portArgument] },
  { name := "history", about := "Show allocation history for a port", arguments := [portArgument]
    options := [limitOption] },
  { name := "stats", about := "Show usage statistics" },
  { name := "scan", about := "Record ports already bound by other processes" },
  { name := "cleanup", about := "Delete released rows older than the given number of days"
    options := [{ name := "days", kind := .integer, default? := some "30" }] }]

/-- The commands on nodes. -/
def nodeCommands : List CommandSpec := [
  { name := "list", about := "List all nodes" },
  { name := "show", about := "Show node details", arguments := [idArgument] },
  { name := "config", about := "Print the generated engine config for a node"
    arguments := [idArgument] },
  { name := "history", about := "Show config history for a node", arguments := [idArgument]
    options := [limitOption] },
  { name := "status", about := "Query the node agent", arguments := [idArgument] },
  { name := "user", about := "Look up one user on the node agent"
    arguments := [idArgument, { name := "uuid", about := "User UUID" }] },
  { name := "delete", about := "Delete a node and release its ports", arguments := [idArgument] }]

/-- The commands on users. -/
def userCommands : List CommandSpec := [
  { name := "add", about := "Create a user and print its subscription token"
    options := [
      { name := "group", short := some 'g', kind := .integer, about := "Group ID" },
      { name := "quota-gb", short := some 'q', kind := .integer, default? := some "0"
        about := "Traffic quota in GiB, 0 for unlimited" },
      { name := "days", short := some 'd', kind := .integer, about := "Days until expiry" }] },
  { name := "list", about := "List all users" },
  { name := "stats", about := "Show daily traffic for a user", arguments := [idArgument] }]

/-- The command line of the service. -/
def commandSpec : CommandSpec where
  name := serviceName
  about := "Port allocation, config generation and subscriptions for proxy nodes"
  options := [{ name := "config", short := some 'c', default? := some defaultSettingsPath
                about := "Configuration file path" }]
  subcommands := [
    { name := "run", about := "Run the API server and node sync loops"
      options := [{ name := "host", about := "Override API listen host" },
        { name := "port", kind := .port, about := "Override API listen port" }] },
    { name := "check-config", about := "Validate configuration and exit" },
    { name := "ports", about := "Port allocation commands", subcommands := portCommands },
    { name := "nodes", about := "Node commands", subcommands := nodeCommands },
    { name := "users", about := "User commands", subcommands := userCommands, needsSubcommand := true },
    { name := "protocols", about := "List supported protocols and their parameters" },
    { name := "render", about := "Render a subscription for a user"
      options := [
        { name := "user", short := some 'u', kind := .integer, required := true, about := "User ID" },
        { name := "format", short := some 'f', default? := some "base64"
          about := "Output format (singbox, clash, clash-meta, surge, surfboard, quantumultx, loon, base64)" }] },
    { name := "keygen", about := "Generate a Shadowsocks 2022 server key"
      options := [{ name := "method", short := some 'm', default? := some "2022-blake3-aes-128-gcm"
                    about := "Cipher method" }] }]

/-! ## Reading -/

namespace Command

/-- What an invocation asks for. -/
def ofInvocation? (inv : Invocation) : Option Command := do
  let limit := (inv.int? "limit").getD 20
  match inv.path, inv.arguments with
  | [], [] => return serve none none
  | ["run"], [] => return serve (inv.text? "host") (inv.int? "port")
  | ["check-config"], [] => return checkSettings
  | ["ports"], [] | ["ports", "list"], [] => return listPorts
  | ["ports", "show"], [.int port] => return showPort (UInt16.ofNat port.toNat)
  | ["ports", "history"], [.int port] => return portHistory (UInt16.ofNat port.toNat) limit
  | ["ports", "stats"], [] => return portStats
  | ["ports", "scan"], [] => return scanPorts
  | ["ports", "cleanup"], [] => return cleanPorts (← inv.int? "days")
  | ["nodes"], [] | ["nodes", "list"], [] => return listNodes
  | ["nodes", "show"], [.int id] => return showNode id
  | ["nodes", "config"], [.int id] => return nodeConfig id
  | ["nodes", "history"], [.int id] => return nodeHistory id limit
  | ["nodes", "status"], [.int id] => return nodeStatus id
  | ["nodes", "user"], [.int id, .text uuid] => return nodeUser id uuid
  | ["nodes", "delete"], [.int id] => return deleteNode id
  | ["users", "add"], [] => return addUser (inv.int? "group") (← inv.int? "quota-gb") (inv.int? "days")
  | ["users", "list"], [] => return listUsers
  | ["users", "stats"], [.int id] => return userStats id
  | ["protocols"], [] => return protocols
  | ["render"], [] => return render (← inv.int? "user") (← inv.text? "format")
  | ["keygen"], [] => return makeKey (← inv.text? "method")
  | _, _ => none

/-- The path of the configuration file and what is to be done, as the words of a command line say. -/
def ofWords (words : List String) : Except Interruption (String × Command) := do
  let inv ← commandSpec.parse words
  match ofInvocation? inv with
  | some command => return ((inv.text? "config").getD defaultSettingsPath, command)
  | none => throw (.missingSubcommand inv.path)

end Command

namespace Interruption

/-- The help on the command that words name. -/
def helpText (path : List String) : String :=
  ((commandSpec.find? path).map (·.help (serviceName :: path))).getD ""

/-- What is wrong with a command line, if anything is. -/
def complaint? : Interruption → Option String
  | help _ => none
  | version => none
  | unexpected word => some s!"unexpected argument '{word}' found"
  | invalidValue word name => some s!"invalid value '{word}' for '{name}'"
  | missingValue name => some s!"a value is required for '{name}' but none was supplied"
  | repeated name => some s!"the argument '{name}' cannot be used multiple times"
  | missing name => some s!"the argument '{name}' was not provided"
  | missingSubcommand _ => some "a subcommand is required"

end Interruption

end ProxyFleet

import ProxyFleet.Agent.Client
import ProxyFleet.CommandLine.Command
import ProxyFleet.CommandLine.Failure
import ProxyFleet.Fleet.Basic

/-!
# Carrying out commands

* `quotaOfGib?` : the bytes of a quota;
* `Fleet.carryOut` : a command's output, and what becomes of the fleet;
* `Fleet.runCommand` : the same with the settings of a configuration file.

What a command draws on beside the fleet is given: the moment, the ports that others have bound, the
way to agents, and what has to be random.
-/

namespace ProxyFleet

set_option autoImplicit false

/-- What a command draws on beside the fleet. -/
structure CommandContext where
  now : Instant
  refused : UInt16 → Bool
  transport : HttpTransport
  /-- The uuid and the subscription token of a user that is added. -/
  uuid : String
  token : String
  /-- The text of a fresh key of so many bytes. -/
  key : Nat → String

/-- What a command shows, and its exit code. -/
structure CommandOutput where
  code : Nat := 0
  stdout : String := ""
  stderr : String := ""
  deriving DecidableEq

namespace CommandOutput

/-- Lines, each with its end. -/
def lines (ls : List String) : String := String.join (ls.map (· ++ "\n"))

/-- Lines that are shown. -/
def shown (ls : List String) : CommandOutput := { stdout := lines ls }

/-- A complaint, with the exit code of a failure. -/
def complaint (s : String) : CommandOutput := { code := 1, stderr := s ++ "\n" }

/-- Cells of a row, each filled up to its width; what is beyond the widths stays as it is. -/
def row : List Nat → List String → String
  | width :: widths, cell :: cells =>
    Text.padRight width cell ++ (if cells.isEmpty then "" else " " ++ row widths cells)
  | _, cells => " ".intercalate cells

/-- A line of one character. -/
def rule (c : Char) (width : Nat) : String := String.ofList (List.replicate width c)

/-- A table with a head, or a line in its place where there are no rows. -/
def table (empty : String) (widths : List Nat) (head : List String) (width : Nat)
    (rows : List (List String)) : CommandOutput :=
  if rows.isEmpty then shown [empty]
  else shown (row widths head :: rule '-' width :: rows.map (row widths))

end CommandOutput

/-- What is shown of a failure. -/
def CommandFailure.output (f : CommandFailure) : CommandOutput := { code := 1, stderr := f.text }

/-- What is shown where no command is carried out. -/
def Interruption.output : Interruption → CommandOutput
  | .help path => { stdout := helpText path }
  | .version => .shown [s!"{serviceName} {serviceVersion}"]
  | .missingSubcommand path => { code := 2, stderr := helpText path }
  | i =>
    let complaint := (i.complaint?).getD ""
    { code := 2, stderr := s!"error: {complaint}\n\nFor more information, try '--help'.\n" }

open CommandOutput

/-- The bytes of a quota, unless one of the products is beyond 64 bits. -/
def quotaOfGib? (gib : Int) : Option Int := do
  let mebibytes ← Word64.ofInt? (gib * 1024)
  let kibibytes ← Word64.ofInt? (mebibytes * 1024)
  Word64.ofInt? (kibibytes * 1024)

/-- The moment a number of days away, unless its year is beyond the calendar. -/
def Instant.shifted? (t : Instant) (days : Int) : Option Instant :=
  let shifted := t.addDays days
  if Day.years.1 ≤ shifted.day.year ∧ shifted.day.year ≤ Day.years.2 then some shifted else none

/-- A command that cannot be carried out because a moment is beyond the calendar. -/
def beyondCalendar : CommandOutput := { code := 101, stderr := "date is out of range\n" }

/-- A command that stops at a number beyond 64 bits, after it has shown some of its output. -/
def overflown (operation : String) (stdout : String) : CommandOutput :=
  { code := 101, stdout, stderr := s!"attempt to {operation} with overflow\n" }

/-! ## Settings and protocols -/

/-- What is shown of valid settings. -/
def settingsLines (s : Settings) : List String := [
  "Configuration is valid",
  "",
  "Ports:",
  s!"  Range: {s.ports.first}-{s.ports.last} ({s.ports.size} ports)",
  s!"  Hold sockets: {s.ports.holdSockets}",
  s!"  Scan on startup: {s.ports.scanOnStartup}",
  "",
  "API:",
  s!"  Listen: {s.api.listenHost}:{s.api.listenPort}",
  "",
  "Database:",
  s!"  Path: {s.database.path}",
  "",
  "Node agents:",
  s!"  Pull interval: {s.agents.pullInterval}s",
  s!"  Push interval: {s.agents.pushInterval}s",
  s!"  Default agent port: {s.agents.port}",
  "",
  "Generator:",
  s!"  Local port: {s.engine.localPort}",
  s!"  Log level: {s.engine.logLevel}"]

/-- Names with commas between them. -/
def listed (names : List String) : String := ", ".intercalate names

/-- What is shown of the protocols. -/
def protocolLines : List String :=
  Protocol.all.flatMap fun p =>
    [p.name, "  required: " ++ listed p.requiredParams, "  optional: " ++ listed p.optionalParams]

namespace Fleet

/-! ## Ports -/

/-- What is shown of the ports that are held. -/
def portTable (s : Fleet) : CommandOutput :=
  table "No allocations found" [8, 8, 10] ["Port", "Node", "Purpose", "Allocated"] 50
    (s.roster.ports.held.map fun a =>
      [toString a.port, toString a.owner, a.purpose.name, a.allocatedAt.minuteText])

/-- What is shown of one port. -/
def portDetails (s : Fleet) (port : UInt16) : CommandOutput :=
  match s.roster.ports.find? port with
  | none => complaint s!"Port not allocated: {port}"
  | some a => shown [s!"Port:       {a.port}", s!"Node:       {a.owner}",
      s!"Purpose:    {a.purpose.name}", s!"Status:     {a.status.name}",
      s!"Allocated:  {a.allocatedAt.display}"]

/-- What is shown of a port's history. -/
def portHistoryTable (s : Fleet) (port : UInt16) (limit : Int) (now : Instant) :
    Except CommandFailure CommandOutput := do
  let history ← orFailure "Failed to load port history" StoreError.causes
    (s.roster.ports.table.portHistory port limit now)
  return table s!"No history for port {port}" [8, 10, 10, 20]
    ["Node", "Purpose", "Status", "Allocated", "Released"] 70
    (history.map fun a => [toString a.owner, a.purpose.name, a.status.name, a.allocatedAt.minuteText,
      (a.releasedAt.map (·.minuteText)).getD "-"])

/-- What is shown of the use of ports. -/
def portSummary (s : Fleet) : CommandOutput :=
  let m := s.roster.ports.metrics
  let u := s.roster.ports.table.usage
  shown ["Port Allocator Status", rule '=' 40, s!"Range:             {m.first}-{m.last}",
    s!"Total Ports:       {m.total}", s!"Allocated:         {m.allocated}",
    s!"Available:         {m.available}", s!"Released (rows):   {u.released}",
    s!"Nodes with ports:  {u.nodes}"]

/-! ## Nodes -/

/-- What is shown of the nodes. -/
def nodeTable (s : Fleet) (now : Instant) : Except CommandFailure CommandOutput := do
  let nodes ← orFailure "Failed to list nodes" NodeError.causes (s.roster.list now)
  return table "No nodes found" [5, 20, 12, 30, 7] ["ID", "Name", "Protocol", "Host", "Port", "Rate"] 85
    (nodes.map fun n => [toString n.id, n.name, n.protocolName, n.host, toString n.port, n.rate.plainText])

/-- The node of an id. -/
def nodeOrFailure (s : Fleet) (id : Int) (now : Instant) : Except CommandFailure Node :=
  orFailure "Failed to get node" NodeError.causes (s.roster.find id now)

/-- What is shown of a node's engine document. -/
def nodeDocument (s : Fleet) (id : Int) (now : Instant) : Except CommandFailure CommandOutput := do
  let document ← orFailure "Failed to generate config" NodeError.causes (s.roster.config id now)
  return {
    stdout := document.toJson.pretty ++ "\n"
    stderr := lines (document.validate.warnings.map fun w => s!"warning: {w.text}") }

/-- What is shown of a node's history. -/
def nodeHistoryTable (s : Fleet) (id limit : Int) (now : Instant) : Except CommandFailure CommandOutput := do
  let history ← orFailure "Failed to load history" NodeError.causes (s.roster.historyOf id limit now)
  return table s!"No history for node {id}" [6, 10, 8, 20] ["ID", "Action", "Success", "At", "Error"] 70
    (history.map fun h => [toString h.id, h.action.name, toString h.success, h.createdAt.minuteText,
      h.error.getD ""])

/-- What is shown of the state of a node's agent. -/
def agentState (s : Fleet) (c : CommandContext) (id : Int) : Except CommandFailure CommandOutput := do
  let node ← s.nodeOrFailure id c.now
  let e := Endpoint.ofNode node s.settings.agents
  let report := AgentReport.ask fun r => (r.send c.transport e).2
  let status : NodeStatus := ⟨node.id, e.baseUrl, report⟩
  return { code := if report.isOk then 0 else 1, stdout := status.toJson.pretty ++ "\n" }

/-- What is shown of a user as a node's agent knows it. -/
def agentUser (s : Fleet) (c : CommandContext) (id : Int) (uuid : String) :
    Except CommandFailure CommandOutput := do
  let node ← s.nodeOrFailure id c.now
  let e := Endpoint.ofNode node s.settings.agents
  let answer := ((AgentRequest.get uuid).send c.transport e).2
  match ← orFailure "Failed to query node agent" SyncError.causes (answer.mapError .agent) with
  | some user => return { stdout := user.toJson.pretty ++ "\n" }
  | none => return complaint s!"User {uuid} not present on node {id}"

/-- Remove a node. -/
def removeNode (s : Fleet) (id : Int) (now : Instant) : Except CommandFailure CommandOutput × Fleet :=
  let (released, roster) := s.roster.delete id now
  (do
    let ports ← orFailure "Failed to delete node" NodeError.causes released
    let text := listed (ports.map toString)
    return shown [s!"Deleted node {id} (released ports: [{text}])"],
   { s with roster })

/-! ## Users -/

/-- Add a user. -/
def enrollUser (s : Fleet) (c : CommandContext) (d : UserDraft) : Except CommandFailure CommandOutput × Fleet :=
  match s.ledger.users.add c.uuid c.token d c.now with
  | .error e => (.error ("Failed to create user" :: e.causes), s)
  | .ok (user, users) =>
    let group := (user.group.map toString).getD "(none)"
    (.ok (shown ["User created successfully!", s!"  ID:     {user.id}", s!"  UUID:   {user.uuid}",
      s!"  Group:  {group}", "", s!"  Subscription token: {c.token}", "",
      "Save this token securely - it cannot be retrieved later!"]),
     { s with ledger := { s.ledger with users } })

/-- What is shown of the users, row after row up to one whose use is beyond 64 bits. -/
def userTable (s : Fleet) (now : Instant) : CommandOutput :=
  let rows := (s.ledger.users.list now).map fun u => u.used?.map fun used =>
    [toString u.id, u.uuid, (u.group.map toString).getD "-", toString used, toString u.quota, toString u.banned]
  if rows.isEmpty then shown ["No users found"]
  else
    let widths := [5, 38, 6, 14, 14, 7]
    let head := row widths ["ID", "UUID", "Group", "Used", "Quota", "Banned"]
    let written := lines (head :: rule '-' 90 :: (rows.takeWhile (·.isSome)).filterMap (·.map (row widths)))
    if rows.all (·.isSome) then { stdout := written } else overflown "add" written

/-- What is shown of a user's traffic; the days have no width of their own. -/
def userDayTable (s : Fleet) (id : Int) : Except CommandFailure CommandOutput := do
  let days ← orFailure "Failed to load traffic" StoreError.causes (s.ledger.userDays id)
  if days.isEmpty then return shown [s!"No traffic recorded for user {id}"]
  let head := row [12, 6, 14] ["Day", "Rate", "Upload", "Download"]
  return shown (head :: rule '-' 50 :: days.map fun d =>
    row [0, 6, 14] [d.day.text, d.rate.plainText, toString d.upload, toString d.download])

/-- What is shown of a user's subscription. -/
def subscriptionOutput (s : Fleet) (id : Int) (format : String) (now : Instant) :
    Except CommandFailure CommandOutput :=
  match Subscription.Format.ofName? format with
  | none => .error [Subscription.unknownFormat format]
  | some f =>
    match s.ledger.users.find? id now with
    | none => .ok (complaint s!"User not found: {id}")
    | some user => do
      let content ← orFailure "Failed to list nodes" StoreError.causes (s.subscription user f now)
      if (user.eligible? now).isNone then return overflown "add" ""
      return { stdout := content ++ "\n" }

/-! ## Commands -/

/-- Start the services over what is stored. -/
def started (s : Fleet) (now : Instant) : Except CommandFailure Fleet :=
  let (restored, s) := s.reopen s.settings now
  (orFailure "Failed to restore port allocations" PortError.causes (restored.mapError .store)).map
    fun _ => s

/-- Carry out a command on ports or nodes, whose services have started. -/
def onServices (s : Fleet) (c : CommandContext) : Command → Except CommandFailure CommandOutput × Fleet
  | .listPorts => (.ok s.portTable, s)
  | .showPort port => (.ok (s.portDetails port), s)
  | .portHistory port limit => (s.portHistoryTable port limit c.now, s)
  | .portStats => (.ok s.portSummary, s)
  | .scanPorts =>
    let (n, ports) := s.roster.ports.scan c.refused c.now
    (.ok (shown [s!"Recorded {n} ports in use by other processes"]),
     { s with roster := { s.roster with ports } })
  | .cleanPorts days =>
    match c.now.shifted? (-days) with
    | none => (.ok beyondCalendar, s)
    | some before =>
      let rows := s.roster.ports.table
      let n := rows.count (PortTable.isStale before)
      let ports := { s.roster.ports with table := rows.cleanup before }
      (.ok (shown [s!"Removed {n} released port rows older than {days} days"]),
       { s with roster := { s.roster with ports } })
  | .listNodes => (s.nodeTable c.now, s)
  | .showNode id => ((s.nodeOrFailure id c.now).map fun n => { stdout := n.toJson.pretty ++ "\n" }, s)
  | .nodeConfig id => (s.nodeDocument id c.now, s)
  | .nodeHistory id limit => (s.nodeHistoryTable id limit c.now, s)
  | .nodeStatus id => (s.agentState c id, s)
  | .nodeUser id uuid => (s.agentUser c id uuid, s)
  | .deleteNode id => s.removeNode id c.now
  | _ => (.ok {}, s)

/-- Carry out a command. No command here waits for requests, so serving is refused. -/
def carryOut (s : Fleet) (c : CommandContext) (command : Command) :
    Except CommandFailure CommandOutput × Fleet :=
  match command with
  | .serve _ _ => (.error ["this program does not wait for requests"], s)
  | .checkSettings => (.ok (shown (settingsLines s.settings)), s)
  | .protocols => (.ok (shown protocolLines), s)
  | .makeKey method =>
    match UserKey.size? method with
    | some n => (.ok (shown [c.key n]), s)
    | none => (.error [s!"{method} is not a Shadowsocks 2022 method"], s)
  | .addUser group quotaGib days =>
    match quotaOfGib? quotaGib, days.map c.now.shifted? with
    | none, _ => (.ok (overflown "multiply" ""), s)
    | some _, some none => (.ok beyondCalendar, s)
    | some quota, none => s.enrollUser c { group, quota }
    | some quota, some (some t) => s.enrollUser c { group, quota, expiresAt := some t }
  | .listUsers => (.ok (s.userTable c.now), s)
  | .userStats id => (s.userDayTable id, s)
  | .render user format => (s.subscriptionOutput user format c.now, s)
  | command =>
    match s.started c.now with
    | .error f => (.error f, s)
    | .ok s => s.onServices c command

/-- Carry out a command with the settings of a configuration file, if it is there. -/
def runCommand (s : Fleet) (c : CommandContext) (file : Option ByteArray) (command : Command) :
    CommandOutput × Fleet :=
  match orFailure "Failed to load configuration" LoadError.causes (Settings.load file) with
  | .error f => (f.output, s)
  | .ok settings =>
    let roster := { s.roster with settings := settings.engine }
    match carryOut { s with settings, roster } c command with
    | (.ok output, s) => (output, s)
    | (.error f, s) => (f.output, s)

end Fleet

end ProxyFleet

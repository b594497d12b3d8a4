/-!
# Settings

What an operator configures, section by section, with the value each setting has where nothing is
said. `Settings.check` refuses settings that cannot work; `SettingsError.message` words why.
-/

namespace ProxyFleet

set_option autoImplicit false

/-- The local ports that are handed out, both ends included. -/
structure PortSettings where
  first : UInt16 := 10000
  last : UInt16 := 20000
  /-- Keep the probe's socket bound until the port is released. -/
  holdSockets : Bool := false
  /-- Record the ports that others use when the service starts. -/
  scanOnStartup : Bool := false
  deriving DecidableEq

/-- Where the service listens. -/
structure ApiSettings where
  listenHost : String := "0.0.0.0"
  listenPort : UInt16 := 8080
  deriving DecidableEq

/-- Where the database is. -/
structure DatabaseSettings where
  path : String := "/var/lib/nodeplane/nodeplane.db"
  deriving DecidableEq

/-- How the agents of nodes are called. -/
structure AgentSettings where
  /-- Seconds between two reconciliations of users. -/
  pullInterval : UInt64 := 60
  /-- Seconds between two collections of traffic. -/
  pushInterval : UInt64 := 60
  /-- Seconds that a call may take. -/
  requestTimeout : UInt64 := 30
  /-- The port of agents whose address is not given. -/
  port : UInt16 := 9000
  /-- The token of nodes without one of their own. -/
  token : Option String := none
  deriving DecidableEq

/-- What goes into an engine document beside the nodes. -/
structure EngineSettings where
  localPort : UInt16 := 7890
  logLevel : String := "info"
  enableDns : Bool := true
  enableRoute : Bool := true
  deriving DecidableEq

/-- What subscribers are told. -/
structure SubscriptionSettings where
  /-- Hours between two updates of a profile. -/
  updateInterval : UInt32 := 24
  deriving DecidableEq

/-- Every section. -/
structure Settings where
  ports : PortSettings := {}
  api : ApiSettings := {}
  database : DatabaseSettings := {}
  agents : AgentSettings := {}
  engine : EngineSettings := {}
  subscription : SubscriptionSettings := {}
  deriving DecidableEq

/-- Why settings were refused. -/
inductive SettingsError where
  | firstPortZero
  | lastPortZero
  | portsReversed (first last : Nat)
  | intervalZero
  | timeoutOutOfRange
  | agentPortZero
  | localPortZero
  | unknownLogLevel (level : String)

/-- The text of a refusal. -/
def SettingsError.message : SettingsError → String
  | firstPortZero => "invalid start port: 0"
  | lastPortZero => "invalid end port: 0"
  | portsReversed first last => s!"start port {first} cannot be greater than end port {last}"
  | intervalZero => "sync intervals must be at least 1 second"
  | timeoutOutOfRange => "request_timeout_secs must be between 1 and 300"
  | agentPortZero => "agent_port must be non-zero"
  | localPortZero => "generator.local_port must be non-zero"
  | unknownLogLevel level => s!"unknown engine log level: {level}"

/-- The log levels of an engine. -/
def logLevels : List String := ["trace", "debug", "info", "warn", "error", "fatal", "panic"]

/-- A range of ports has to start above zero and not end before it starts. -/
def PortSettings.check (s : PortSettings) : Except SettingsError Unit :=
  if s.first = 0 then .error .firstPortZero
  else if s.last = 0 then .error .lastPortZero
  else if s.last < s.first then .error (.portsReversed s.first.toNat s.last.toNat)
  else .ok ()

/-- The number of ports of a range. -/
def PortSettings.size (s : PortSettings) : Nat := s.last.toNat - s.first.toNat + 1

/-- Whether a port belongs to a range. -/
def PortSettings.contains (s : PortSettings) (port : UInt16) : Bool := s.first ≤ port && port ≤ s.last

/-- Intervals, the timeout and the port have to be positive, and the timeout at most five minutes. -/
def AgentSettings.check (s : AgentSettings) : Except SettingsError Unit :=
  if s.pullInterval = 0 ∨ s.pushInterval = 0 then .error .intervalZero
  else if s.requestTimeout = 0 ∨ 300 < s.requestTimeout then .error .timeoutOutOfRange
  else if s.port = 0 then .error .agentPortZero
  else .ok ()

/-- The local port has to be positive and the log level known. -/
def EngineSettings.check (s : EngineSettings) : Except SettingsError Unit :=
  if s.localPort = 0 then .error .localPortZero
  else if logLevels.contains s.logLevel then .ok ()
  else .error (.unknownLogLevel s.logLevel)

/-- Checks the ports, then the agents, then the engine. -/
def Settings.check (s : Settings) : Except SettingsError Unit := do
  s.ports.check
  s.agents.check
  s.engine.check

end ProxyFleet

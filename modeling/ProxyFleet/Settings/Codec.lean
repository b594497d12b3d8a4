import ProxyFleet.Json.Decode
import ProxyFleet.Settings.Basic

/-!
# Settings as documents

The names that settings have in a configuration file. A section or a setting that is left out has
its default; what is not known is passed over.
-/

namespace ProxyFleet

set_option autoImplicit false

open Decoder

/-- A file path. -/
def Decoder.path : Decoder String
  | .str s => .ok s
  | v => .error (.wrongType v "path string")

/-- Reads the section on ports. -/
def PortSettings.decoder : Decoder PortSettings :=
  record "PortConfig" (PortSettings.mk <$> Fields.default "start" u16 10000
    <*> Fields.default "end" u16 20000 <*> Fields.default "hold_sockets" bool false
    <*> Fields.default "scan_on_startup" bool false)

/-- Reads the section on the service's address. -/
def ApiSettings.decoder : Decoder ApiSettings :=
  record "ApiConfig" (ApiSettings.mk <$> Fields.default "listen_host" text "0.0.0.0"
    <*> Fields.default "listen_port" u16 8080)

/-- Reads the section on the database. -/
def DatabaseSettings.decoder : Decoder DatabaseSettings :=
  record "DatabaseConfig" (DatabaseSettings.mk <$>
    Fields.default "path" Decoder.path "/var/lib/nodeplane/nodeplane.db")

/-- Reads the section on agents. -/
def AgentSettings.decoder : Decoder AgentSettings :=
  record "NodeConfig" (AgentSettings.mk <$> Fields.default "pull_interval_secs" u64 60
    <*> Fields.default "push_interval_secs" u64 60 <*> Fields.default "request_timeout_secs" u64 30
    <*> Fields.default "agent_port" u16 9000 <*> Fields.optional "agent_token" text)

/-- Reads the section on engine documents. -/
def EngineSettings.decoder : Decoder EngineSettings :=
  record "GeneratorConfig" (EngineSettings.mk <$> Fields.default "local_port" u16 7890
    <*> Fields.default "log_level" text "info" <*> Fields.default "enable_dns" bool true
    <*> Fields.default "enable_route" bool true)

/-- Reads the section on subscriptions. -/
def SubscriptionSettings.decoder : Decoder SubscriptionSettings :=
  record "SubscriptionConfig" (SubscriptionSettings.mk <$>
    Fields.default "update_interval_hours" u32 24)

/-- Reads every section. -/
def Settings.decoder : Decoder Settings :=
  record "Config" (Settings.mk <$> Fields.default "ports" PortSettings.decoder {}
    <*> Fields.default "api" ApiSettings.decoder {}
    <*> Fields.default "database" DatabaseSettings.decoder {}
    <*> Fields.default "node" AgentSettings.decoder {}
    <*> Fields.default "generator" EngineSettings.decoder {}
    <*> Fields.default "subscription" SubscriptionSettings.decoder {})

/-- The document of settings, with every one of them. -/
def Settings.toJson (s : Settings) : Json :=
  .obj [
    ("ports", .obj [("start", .nat s.ports.first.toNat), ("end", .nat s.ports.last.toNat),
      ("hold_sockets", .bool s.ports.holdSockets), ("scan_on_startup", .bool s.ports.scanOnStartup)]),
    ("api", .obj [("listen_host", .str s.api.listenHost),
      ("listen_port", .nat s.api.listenPort.toNat)]),
    ("database", .obj [("path", .str s.database.path)]),
    ("node", .obj [("pull_interval_secs", .nat s.agents.pullInterval.toNat),
      ("push_interval_secs", .nat s.agents.pushInterval.toNat),
      ("request_timeout_secs", .nat s.agents.requestTimeout.toNat),
      ("agent_port", .nat s.agents.port.toNat), ("agent_token", Json.orNull .str s.agents.token)]),
    ("generator", .obj [("local_port", .nat s.engine.localPort.toNat),
      ("log_level", .str s.engine.logLevel), ("enable_dns", .bool s.engine.enableDns),
      ("enable_route", .bool s.engine.enableRoute)]),
    ("subscription", .obj [("update_interval_hours", .nat s.subscription.updateInterval.toNat)])]

end ProxyFleet

import ProxyFleet.Agent.Memory

/-!
# The state of a node's agent

`Agents.status` asks an agent what it is, for its users, and for what it has counted.
-/

namespace ProxyFleet

set_option autoImplicit false

/-- What an agent said about itself. -/
structure AgentReport where
  info : AgentInfo
  users : Nat
  stats : RemoteStats
  deriving DecidableEq

/-- What an agent says about itself when it is asked; the first question without an answer ends it. -/
def AgentReport.ask (answer : {α : Type} → AgentRequest α → Except AgentError α) :
    Except AgentError AgentReport := do
  let info ← answer .info
  let users ← answer .list
  let stats ← answer (.stats false)
  return ⟨info, users.length, stats⟩

/-- The state of a node's agent. -/
structure NodeStatus where
  node : Int
  endpoint : String
  report : Except AgentError AgentReport

/-- The document of a state; what an agent did not say is null, or zero. -/
def NodeStatus.toJson (s : NodeStatus) : Json :=
  let report := s.report.toOption
  let count (f : AgentReport → Int) : Json := .int ((report.map f).getD 0)
  let error := match s.report with
    | .ok _ => none
    | .error e => some e.message
  .obj [("node_id", .int s.node), ("endpoint", .str s.endpoint), ("online", .bool report.isSome),
    ("server", Json.orNull (fun r => .str r.info.server) report),
    ("api_version", Json.orNull (fun r => .str r.info.apiVersion) report),
    ("users", count fun r => r.users), ("uplink_bytes", count fun r => r.stats.uplinkBytes),
    ("downlink_bytes", count fun r => r.stats.downlinkBytes), ("error", Json.orNull .str error)]

namespace Agents

/-- Ask an agent about itself; the first call that fails ends it. -/
def report (s : Agents) (e : Endpoint) : Except AgentError AgentReport × Agents :=
  match s.call e .info with
  | (.error err, s) => (.error err, s)
  | (.ok info, s) =>
    match s.call e .list with
    | (.error err, s) => (.error err, s)
    | (.ok users, s) =>
      match s.call e (.stats false) with
      | (.error err, s) => (.error err, s)
      | (.ok stats, s) => (.ok ⟨info, users.length, stats⟩, s)

/-- The state of a node's agent. -/
def status (s : Agents) (settings : AgentSettings) (n : Node) : NodeStatus × Agents :=
  let e := Endpoint.ofNode n settings
  let (report, s) := s.report e
  (⟨n.id, e.baseUrl, report⟩, s)

end Agents

end ProxyFleet

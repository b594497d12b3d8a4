import ProxyFleet.Engine.Assembly
import ProxyFleet.Protocol.Canonical
import ProxyFleet.Subscription.Server
import ProxyFleet.Time.Instant

/-!
# Nodes

A `Node` is a proxy server of the fleet: where it is reached, how, and whom it serves.

* `Node.toJson` : the document of a node;
* `Node.snapshot` : the text of what an operator can set, for the record of changes;
* `Node.toEntry`, `Node.toServer` : the node in an engine document and in a subscription.
-/

namespace ProxyFleet

set_option autoImplicit false

/-- A proxy server of the fleet. -/
structure Node where
  id : Int
  name : String
  host : String
  port : UInt16
  params : Params
  /-- By how much its traffic is multiplied. -/
  rate : Binary64
  groups : List Int
  agentUrl : Option String
  agentToken : Option String
  createdAt : Instant
  updatedAt : Instant
  deriving DecidableEq

/-- A rate that counts traffic; any other is one. -/
def normalizeRate (rate : Binary64) : Binary64 :=
  if rate.isFinite && rate.isPositive then rate else Binary64.one

namespace Node

/-- By how much traffic is multiplied, never nothing. -/
def effectiveRate (n : Node) : Binary64 := normalizeRate n.rate

/-- Whether the users of a group may use the node; users without a group may not. -/
def servesGroup (n : Node) (group : Option Int) : Bool := group.any fun g => n.groups.contains g

/-- The name of the protocol that the node speaks. -/
def protocolName (n : Node) : String := n.params.protocol.name

/-- The document of a node. -/
def toJson (n : Node) : Json := Json.record [
  ("id", some (.int n.id)), ("name", some (.str n.name)), ("protocol", some (.str n.protocolName)),
  ("host", some (.str n.host)), ("port", some (.nat n.port.toNat)),
  ("params", some n.params.canonical), ("rate", some (.float n.rate)),
  ("group_ids", some (.ints n.groups)), ("agent_url", n.agentUrl.map .str),
  ("created_at", some (.str n.createdAt.text)), ("updated_at", some (.str n.updatedAt.text))]

/-- The text of what an operator can set, fields in the order of their names. -/
def snapshot (n : Node) : String :=
  (Json.obj [("group_ids", .ints n.groups), ("host", .str n.host), ("name", .str n.name),
    ("params", n.params.canonical), ("port", .nat n.port.toNat), ("protocol", .str n.protocolName),
    ("rate", .float n.rate)]).compact

/-- The node in an engine document. -/
def toEntry (n : Node) : Engine.NodeEntry := ⟨n.name, n.host, n.port, n.params⟩

/-- The node in a subscription. -/
def toServer (n : Node) : Subscription.Server := ⟨n.name, n.host, n.port, n.params⟩

/-- The engine document for the node alone. -/
def document (n : Node) (settings : EngineSettings) : Engine.Document :=
  Engine.Document.ofNodes [n.toEntry] settings

end Node

end ProxyFleet

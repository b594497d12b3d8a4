import ProxyFleet.Json.Value
import ProxyFleet.Time.Instant

/-!
# Ports that are held

A `PortAllocation` says which node holds a local port, for what, and since when.
-/

namespace ProxyFleet

set_option autoImplicit false

/-- What a port is held for. -/
inductive PortPurpose where
  | inbound
  | outbound
  | system
  deriving DecidableEq

namespace PortPurpose

/-- Every purpose. -/
def all : List PortPurpose := [inbound, outbound, system]

/-- The name of a purpose. -/
def name : PortPurpose → String
  | inbound => "inbound"
  | outbound => "outbound"
  | system => "system"

/-- The purpose of a name. -/
def ofName? (s : String) : Option PortPurpose := all.find? (·.name == s)

end PortPurpose

/-- Whether a recorded port is still held. -/
inductive PortStatus where
  | allocated
  | released
  deriving DecidableEq

namespace PortStatus

/-- Every status. -/
def all : List PortStatus := [allocated, released]

/-- The name of a status. -/
def name : PortStatus → String
  | allocated => "allocated"
  | released => "released"

/-- The status of a name. -/
def ofName? (s : String) : Option PortStatus := all.find? (·.name == s)

end PortStatus

/-- The owner of ports that other programs have bound. -/
def systemOwner : Int := -1

/-- The owner of ports that are taken for a node which has no row yet. -/
def pendingOwner : Int := 0

/-- A port that a node holds, or held. -/
structure PortAllocation where
  port : UInt16
  owner : Int
  purpose : PortPurpose
  status : PortStatus := .allocated
  allocatedAt : Instant
  releasedAt : Option Instant := none
  deriving DecidableEq

/-- The document of a port that is held. -/
def PortAllocation.toJson (a : PortAllocation) : Json :=
  .obj [("port", .nat a.port.toNat), ("node_id", .int a.owner), ("purpose", .str a.purpose.name),
    ("status", .str a.status.name), ("allocated_at", .str a.allocatedAt.text),
    ("released_at", Json.orNull (fun t => .str t.text) a.releasedAt)]

end ProxyFleet

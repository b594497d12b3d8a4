import ProxyFleet.Ports.Basic
import ProxyFleet.Store.Error
import ProxyFleet.Store.Table

/-!
# The table of ports

Every port that was ever held has a row, and a port has at most one row that says it still is.

* `PortTable.record`, `PortTable.release`, `PortTable.reassign`, `PortTable.cleanup` : changes;
* `PortTable.active`, `PortTable.portHistory`, `PortTable.ownerHistory`, `PortTable.usage` : reading.
-/

namespace ProxyFleet

set_option autoImplicit false

/-- A row of the table, column by column. -/
structure PortRow where
  port : Int
  owner : Int
  purpose : String
  status : String
  allocatedAt : String
  releasedAt : Option String

namespace PortRow

/-- The row of a port that is held. -/
def ofAllocation (a : PortAllocation) : PortRow where
  port := a.port.toNat
  owner := a.owner
  purpose := a.purpose.name
  status := PortStatus.allocated.name
  allocatedAt := a.allocatedAt.stamp
  releasedAt := none

/-- The row says that its port is still held. -/
def isActive (r : PortRow) : Bool := r.status == PortStatus.allocated.name

/-- The row says that this port is still held. -/
def holds (r : PortRow) (port : UInt16) : Bool := r.isActive && r.port == port.toNat

/-- What a row says. -/
def allocation (now : Instant) (r : PortRow) : Except StoreError PortAllocation := do
  let port ← portColumn r.port
  let some purpose := PortPurpose.ofName? r.purpose | throw (.corrupt (.unknownPurpose r.purpose))
  let some status := PortStatus.ofName? r.status | throw (.corrupt (.unknownStatus r.status))
  return { port, owner := r.owner, purpose, status
           allocatedAt := timeColumn now r.allocatedAt, releasedAt := timeColumn? r.releasedAt }

end PortRow

/-- The table of ports. -/
abbrev PortTable := Table PortRow

/-- How many rows there are of each status, and how many nodes hold ports. -/
structure PortUsage where
  allocated : Nat
  released : Nat
  nodes : Nat
  deriving DecidableEq

/-- The document of the usage. -/
def PortUsage.toJson (u : PortUsage) : Json :=
  .obj [("allocated", .nat u.allocated), ("released", .nat u.released), ("nodes", .nat u.nodes)]

namespace PortTable

/-- Whether a row says that the port is still held. -/
def isHeld (t : PortTable) (port : UInt16) : Bool := t.rows.any fun (_, r) => r.holds port

/-- Record a port that is now held; refused if a row says it already is. -/
def record (t : PortTable) (a : PortAllocation) : Except StoreError PortTable :=
  if isHeld t a.port then .error (.database (.notUnique "port_allocations.port"))
  else .ok (t.insert (PortRow.ofAllocation a))

/-- Mark a port as released. -/
def release (t : PortTable) (port : UInt16) (time : Instant) : PortTable :=
  t.modify (fun _ r => r.holds port) fun r =>
    { r with status := PortStatus.released.name, releasedAt := some time.stamp }

/-- Give a port that is held to another owner. -/
def reassign (t : PortTable) (port : UInt16) (owner : Int) : PortTable :=
  t.modify (fun _ r => r.holds port) fun r => { r with owner }

/-- The row is of a port released before a moment. -/
def isStale (before : Instant) (r : PortRow) : Bool :=
  r.status == PortStatus.released.name && r.releasedAt.any fun s => s < before.stamp

/-- Remove the rows of ports released before a moment. -/
def cleanup (t : PortTable) (before : Instant) : PortTable := t.erase fun _ r => isStale before r

/-- The ports that are held, in increasing order. -/
def active (t : PortTable) (now : Instant) : Except StoreError (List PortAllocation) :=
  let rows := (t.select (·.isActive)).map (·.2)
  (rows.mergeSort fun a b => a.port ≤ b.port).mapM (·.allocation now)

/-- Rows that meet a condition, newest first, up to a limit. -/
def history (t : PortTable) (p : PortRow → Bool) (limit : Int) (now : Instant) :
    Except StoreError (List PortAllocation) :=
  let rows := ((t.select p).map (·.2)).reverse
  (limited limit (rows.mergeSort fun a b => b.allocatedAt ≤ a.allocatedAt)).mapM (·.allocation now)

/-- The newest rows of a port. -/
def portHistory (t : PortTable) (port : UInt16) : Int → Instant → Except StoreError (List PortAllocation) :=
  history t (·.port == port.toNat)

/-- The newest rows of an owner. -/
def ownerHistory (t : PortTable) (owner : Int) : Int → Instant → Except StoreError (List PortAllocation) :=
  history t (·.owner == owner)

/-- How the table is used. Only nodes with a row of their own count as such. -/
def usage (t : PortTable) : PortUsage where
  allocated := t.count (·.isActive)
  released := t.count (·.status == PortStatus.released.name)
  nodes := (((t.select (·.isActive)).map (·.2.owner)).filter (0 < ·)).eraseDups.length

end PortTable

end ProxyFleet

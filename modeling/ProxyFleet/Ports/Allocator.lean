import ProxyFleet.Ports.Rows
import ProxyFleet.Settings.Basic

/-!
# Handing out ports

`Ports` is the range of ports that are handed out, the ports that are held, and the table that
records them. A port is taken in two phases: it is reserved among the held ones and then recorded;
when the table refuses, the reservation is undone.

* `Ports.allocate`, `Ports.allocateAt` : take the first free port, or a given one;
* `Ports.release`, `Ports.releaseOwner`, `Ports.assign` : give ports back, or to another owner;
* `Ports.scan` : hold for the system what other programs have bound;
* `Ports.restore`, `Ports.reopen` : hold what the table says is held.

Which ports other programs have bound is given as a condition, `refused`.
-/

namespace ProxyFleet

set_option autoImplicit false

/-- Why a port is not to be had. -/
inductive PortError where
  | conflict (port : UInt16) (owner : Int) (purpose : PortPurpose)
  | exhausted (first last : UInt16) (used : Nat)
  | outOfRange (port first last : UInt16)
  | unavailable (port : UInt16)
  | store (error : StoreError)

/-- The text on a port that is not to be had. -/
def PortError.message : PortError → String
  | conflict port owner purpose =>
    s!"port {port} is already allocated to node {owner}: port already allocated for {purpose.name}"
  | exhausted first last used =>
    s!"no available ports in range {first}-{last}, {used} ports already used"
  | outOfRange port first last => s!"port {port} is outside allowed range {first}-{last}"
  | unavailable port => s!"port {port} is not available on system"
  | store e => s!"Store error: {e.message}"

/-- The ports of a range in increasing order. -/
def PortSettings.ports (s : PortSettings) : List UInt16 :=
  (List.range (s.last.toNat + 1 - s.first.toNat)).map fun i => UInt16.ofNat (s.first.toNat + i)

/-- The ports that are handed out, and who holds them. -/
structure Ports where
  range : PortSettings
  /-- The ports that are held, in increasing order, each once. -/
  held : List PortAllocation := []
  /-- How often a port was asked for that is held. -/
  conflicts : Nat := 0
  table : PortTable := {}

/-- Numbers on the use of the range. -/
structure PortMetrics where
  first : UInt16
  last : UInt16
  total : Nat
  allocated : Nat
  available : Nat
  conflicts : Nat
  deriving DecidableEq

/-- The document of the numbers. -/
def PortMetrics.toJson (m : PortMetrics) : Json :=
  .obj [("range_start", .nat m.first.toNat), ("range_end", .nat m.last.toNat), ("total", .nat m.total),
    ("allocated", .nat m.allocated), ("available", .nat m.available), ("conflict_count", .nat m.conflicts)]

/-- Put an allocation among allocations in increasing order of ports, in place of one of its port. -/
def insertAllocation (a : PortAllocation) : List PortAllocation → List PortAllocation
  | [] => [a]
  | b :: rest =>
    if a.port < b.port then a :: b :: rest
    else if b.port < a.port then b :: insertAllocation a rest
    else a :: rest

namespace Ports

/-! ## Reading -/

/-- The allocation of a port that is held. -/
def find? (s : Ports) (port : UInt16) : Option PortAllocation := s.held.find? (·.port == port)

/-- Whether a port is held. -/
def isHeld (s : Ports) (port : UInt16) : Bool := (s.find? port).isSome

/-- Whether a port belongs to the range and is not held. -/
def isAvailable (s : Ports) (port : UInt16) : Bool := s.range.contains port && !s.isHeld port

/-- The ports that are held. -/
def used (s : Ports) : List UInt16 := s.held.map (·.port)

/-- The ports of an owner. -/
def ofOwner (s : Ports) (owner : Int) : List UInt16 :=
  (s.held.filter (·.owner == owner)).map (·.port)

/-- The number of ports of the range that are held. -/
def usedInRange (s : Ports) : Nat := s.held.countP fun a => s.range.contains a.port

/-- The number of ports of the range that are not held. -/
def availableCount (s : Ports) : Nat := s.range.size - s.usedInRange

/-- Numbers on the use of the range. -/
def metrics (s : Ports) : PortMetrics where
  first := s.range.first
  last := s.range.last
  total := s.range.size
  allocated := s.usedInRange
  available := s.range.size - s.usedInRange
  conflicts := s.conflicts

/-! ## Taking ports -/

/-- Hold a port without recording it. -/
def hold (s : Ports) (a : PortAllocation) : Ports := { s with held := insertAllocation a s.held }

/-- Hold a port no longer. -/
def drop (s : Ports) (port : UInt16) : Ports := { s with held := s.held.filter (·.port != port) }

/-- Reserve the first port of the range that is neither held nor refused. -/
def reserve (s : Ports) (refused : UInt16 → Bool) (owner : Int) (purpose : PortPurpose) (now : Instant) :
    Except PortError PortAllocation × Ports :=
  match s.range.ports.find? fun p => !s.isHeld p && !refused p with
  | none => (.error (.exhausted s.range.first s.range.last s.usedInRange), s)
  | some port =>
    let a : PortAllocation := { port, owner, purpose, allocatedAt := now }
    (.ok a, s.hold a)

/-- Reserve a port, unless it is outside the range, held, or refused. -/
def reserveAt (s : Ports) (refused : UInt16 → Bool) (port : UInt16) (owner : Int)
    (purpose : PortPurpose) (now : Instant) : Except PortError PortAllocation × Ports :=
  if !s.range.contains port then (.error (.outOfRange port s.range.first s.range.last), s)
  else
    match s.find? port with
    | some a => (.error (.conflict port a.owner a.purpose), { s with conflicts := s.conflicts + 1 })
    | none =>
      if refused port then (.error (.unavailable port), s)
      else
        let a : PortAllocation := { port, owner, purpose, allocatedAt := now }
        (.ok a, s.hold a)

/-- Record a reserved port, or undo its reservation if the table refuses. -/
def commit (s : Ports) (a : PortAllocation) : Except PortError UInt16 × Ports :=
  match s.table.record a with
  | .ok table => (.ok a.port, { s with table })
  | .error e => (.error (.store e), s.drop a.port)

/-- Commit a reservation that was made. -/
def commitReserved : Except PortError PortAllocation × Ports → Except PortError UInt16 × Ports
  | (.ok a, s) => s.commit a
  | (.error e, s) => (.error e, s)

/-- Take the first free port. -/
def allocate (s : Ports) (refused : UInt16 → Bool) (owner : Int) (purpose : PortPurpose) (now : Instant) :
    Except PortError UInt16 × Ports :=
  commitReserved (s.reserve refused owner purpose now)

/-- Take a given port. -/
def allocateAt (s : Ports) (refused : UInt16 → Bool) (port : UInt16) (owner : Int)
    (purpose : PortPurpose) (now : Instant) : Except PortError UInt16 × Ports :=
  commitReserved (s.reserveAt refused port owner purpose now)

/-! ## Giving ports back -/

/-- Give a port back. The answer is whether it was held, or recorded as such. -/
def release (s : Ports) (port : UInt16) (now : Instant) : Bool × Ports :=
  (s.isHeld port || s.table.isHeld port,
   { s.drop port with table := s.table.release port now })

/-- Give back every port of an owner. The answer is those ports. -/
def releaseOwner (s : Ports) (owner : Int) (now : Instant) : List UInt16 × Ports :=
  let ports := s.ofOwner owner
  (ports, ports.foldl (fun s port => (s.release port now).2) s)

/-- Give a port that is held to another owner. -/
def assign (s : Ports) (port : UInt16) (owner : Int) : Except PortError Unit × Ports :=
  match s.find? port with
  | none => (.error (.store (.notFound s!"allocation for port {port}")), s)
  | some a => (.ok (), { s.hold { a with owner } with table := s.table.reassign port owner })

/-! ## Agreement with the system and with the table -/

/-- The ports of the range that are refused although nobody holds them. -/
def foreign (s : Ports) (refused : UInt16 → Bool) : List UInt16 :=
  s.range.ports.filter fun p => !s.isHeld p && refused p

/-- Record ports that were reserved. The answer is how many the table took. -/
def commitAll (s : Ports) (as : List PortAllocation) : Nat × Ports :=
  as.foldl (fun (n, s) a =>
    match s.commit a with
    | (.ok _, s) => (n + 1, s)
    | (.error _, s) => (n, s)) (0, s)

/-- Hold for the system the ports that other programs have bound. The answer is how many. -/
def scan (s : Ports) (refused : UInt16 → Bool) (now : Instant) : Nat × Ports :=
  let as := (s.foreign refused).map fun port =>
    ({ port, owner := systemOwner, purpose := .system, allocatedAt := now } : PortAllocation)
  (as.foldl hold s).commitAll as

/-- Hold what the table says is held in the range. The answer is how many ports. -/
def restore (s : Ports) (now : Instant) : Except StoreError Nat × Ports :=
  match s.table.active now with
  | .error e => (.error e, s)
  | .ok as =>
    let held := (as.filter fun a => s.range.contains a.port).foldl (fun held a => insertAllocation a held) []
    (.ok held.length, { s with held })

/-- Start anew over the same table, with a range. -/
def reopen (s : Ports) (range : PortSettings) (now : Instant) : Except StoreError Nat × Ports :=
  restore { range, table := s.table } now

end Ports

end ProxyFleet

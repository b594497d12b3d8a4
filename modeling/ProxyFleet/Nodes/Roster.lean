import ProxyFleet.Nodes.Request
import ProxyFleet.Nodes.Rows
import ProxyFleet.Ports.Allocator
import ProxyFleet.Protocol.Accept

/-!
# The life of nodes

A `Roster` is the nodes, the ports they hold, and the record of what was done to them. What fails
is undone: a port that was taken is given back, and a port that was given back is taken again.

* `Roster.create`, `Roster.update`, `Roster.delete` : the three changes;
* `Roster.reopen` : the services start anew;
* `Roster.find`, `Roster.list`, `Roster.historyOf`, `Roster.config` : reading.
-/

namespace ProxyFleet

set_option autoImplicit false

/-- Why a request about a node failed. -/
inductive NodeError where
  | param (error : ParamError)
  | port (error : PortError)
  | store (error : StoreError)
  | invalidConfig (validation : Engine.Validation)
  | invalid (fault : NameFault)
  | notFound (id : Int)

/-- The text on a request that failed. -/
def NodeError.message : NodeError → String
  | param e => e.message
  | port e => e.message
  | store e => s!"Store error: {e.message}"
  | invalidConfig v => s!"generated config is invalid: {v.summary}"
  | invalid fault => s!"invalid node: {fault.message}"
  | notFound id => s!"node {id} not found"

/-- The nodes, the ports they hold, and the record of what was done to them. -/
structure Roster where
  /-- What goes into the engine documents of nodes. -/
  settings : EngineSettings := {}
  ports : Ports
  nodes : NodeTable := {}
  history : HistoryTable := {}

namespace Roster

/-! ## Reading -/

/-- The node of an id. -/
def find (s : Roster) (id : Int) (now : Instant) : Except NodeError Node :=
  match s.nodes.find? id now with
  | .error e => .error (.store e)
  | .ok none => .error (.notFound id)
  | .ok (some n) => .ok n

/-- Every node. -/
def list (s : Roster) (now : Instant) : Except NodeError (List Node) :=
  (s.nodes.list now).mapError .store

/-- The newest attempts on a node. -/
def historyOf (s : Roster) (id limit : Int) (now : Instant) : Except NodeError (List HistoryEntry) :=
  (s.history.ofNode id limit now).mapError .store

/-- The engine document of a node. -/
def config (s : Roster) (id : Int) (now : Instant) : Except NodeError Engine.Document :=
  (s.find id now).map (·.document s.settings)

/-- Refuses a node whose engine document would not be valid. -/
def checkDocument (s : Roster) (n : Node) : Except NodeError Unit :=
  let v := (n.document s.settings).validate
  if v.valid then .ok () else .error (.invalidConfig v)

/-- The parameters of a protocol, whose name may be in any letter case. -/
def parseParams (protocol : String) (raw : JsonFields) : Except NodeError Params :=
  (Params.parse (Text.lower protocol) raw).mapError .param

/-! ## Changes -/

/-- The roster with an attempt in its history. -/
def record (s : Roster) (id : Int) (action : NodeAction) (old new : Option String)
    (error : Option NodeError) (now : Instant) : Roster :=
  { s with history := s.history.append id action old new (error.map (·.message)) now }

/-- Take the port that is asked for, or the first free one. -/
def takePort (ports : Ports) (refused : UInt16 → Bool) (port : Option UInt16) (owner : Int)
    (now : Instant) : Except PortError UInt16 × Ports :=
  match port with
  | some port => ports.allocateAt refused port owner .inbound now
  | none => ports.allocate refused owner .inbound now

/-- The node that a request describes, at a port. -/
def nodeOf (r : NodeRequest) (params : Params) (id : Int) (port : UInt16) (now : Instant) : Node where
  id := id
  name := r.name
  host := r.host
  port := port
  params := params
  rate := normalizeRate (r.rate.getD Binary64.one)
  groups := r.groups
  agentUrl := r.agentUrl
  agentToken := r.agentToken
  createdAt := now
  updatedAt := now

/-- Add the node of a request whose parameters are accepted, at a port that was taken for it. The
port goes to the node; if its document would not be valid, port and row go again. -/
def enroll (s : Roster) (r : NodeRequest) (params : Params) (port : UInt16) (now : Instant) :
    Except NodeError Node × Roster :=
  let node := nodeOf r params s.nodes.nextId port now
  let (assigned, ports) := s.ports.assign port node.id
  let added := { s with ports, nodes := s.nodes.insert (NodeRow.ofNode node) }
  match assigned.mapError NodeError.port >>= fun _ => s.checkDocument node with
  | .ok () => (.ok node, added.record node.id .create none (some node.snapshot) none now)
  | .error e =>
    let undone := { added with ports := (ports.release port now).2, nodes := added.nodes.eraseId node.id }
    (.error e, undone.record node.id .create none (some node.snapshot) (some e) now)

/-- Add a node. -/
def create (s : Roster) (refused : UInt16 → Bool) (r : NodeRequest) (now : Instant) :
    Except NodeError Node × Roster :=
  match checkNames r.name r.host with
  | .error fault => (.error (.invalid fault), s)
  | .ok () =>
    match parseParams r.protocol r.params with
    | .error e => (.error e, s)
    | .ok params =>
      match takePort s.ports refused r.port pendingOwner now with
      | (.error e, ports) =>
        (.error (.port e), record { s with ports } pendingOwner .create none none (some (.port e)) now)
      | (.ok port, ports) => enroll { s with ports } r params port now

/-- Give one port back and take another; if that is not to be had, take the first one again. -/
def movePort (ports : Ports) (refused : UInt16 → Bool) (id : Int) (held wanted : UInt16) (now : Instant) :
    Except PortError Unit × Ports :=
  let (_, ports) := ports.release held now
  match ports.allocateAt refused wanted id .inbound now with
  | (.ok _, ports) => (.ok (), ports)
  | (.error e, ports) => (.error e, (ports.allocateAt refused held id .inbound now).2)

/-- The parameters after a change: what is given is accepted anew, together with what is kept. -/
def changedParams (old : Node) (c : NodeChange) : Except NodeError Params :=
  if c.protocol.isNone ∧ c.params.isNone then .ok old.params
  else
    parseParams (c.protocol.getD old.protocolName)
      (c.params.getD (old.params.canonical.obj?.getD []))

/-- Move a node to the port that a change asks for, if it is another one. -/
def changedPort (s : Roster) (refused : UInt16 → Bool) (old : Node) (c : NodeChange) (now : Instant) :
    Except NodeError UInt16 × Roster :=
  match c.port with
  | none => (.ok old.port, s)
  | some port =>
    if port = old.port then (.ok old.port, s)
    else
      match movePort s.ports refused old.id old.port port now with
      | (.error e, ports) => (.error (.port e), { s with ports })
      | (.ok (), ports) => (.ok port, { s with ports })

/-- Write a changed node over its row. If its document would not be valid, it goes back to its port. -/
def settle (s : Roster) (refused : UInt16 → Bool) (old node : Node) (now : Instant) :
    Except NodeError Node × Roster :=
  match s.checkDocument node with
  | .ok () =>
    (.ok node, record { s with nodes := s.nodes.write node } old.id .update (some old.snapshot)
      (some node.snapshot) none now)
  | .error e =>
    let ports :=
      if node.port = old.port then s.ports
      else (movePort s.ports refused old.id node.port old.port now).2
    (.error e, record { s with ports } old.id .update (some old.snapshot) (some node.snapshot) (some e) now)

/-- Change a node. -/
def update (s : Roster) (refused : UInt16 → Bool) (id : Int) (c : NodeChange) (now : Instant) :
    Except NodeError Node × Roster :=
  match s.find id now with
  | .error e => (.error e, s)
  | .ok old =>
    let draft := c.apply old
    match checkNames draft.name draft.host with
    | .error fault => (.error (.invalid fault), s)
    | .ok () =>
      let failed (s : Roster) (e : NodeError) : Except NodeError Node × Roster :=
        (.error e, s.record id .update (some old.snapshot) none (some e) now)
      match changedParams old c with
      | .error e => failed s e
      | .ok params =>
        match s.changedPort refused old c now with
        | (.error e, s) => failed s e
        | (.ok port, s) => s.settle refused old { draft with params, port, updatedAt := now } now

/-- Remove a node and give back its ports. The answer is those ports. -/
def delete (s : Roster) (id : Int) (now : Instant) : Except NodeError (List UInt16) × Roster :=
  match s.find id now with
  | .error e => (.error e, s)
  | .ok old =>
    let (released, ports) := s.ports.releaseOwner id now
    (.ok released, record { s with ports, nodes := s.nodes.eraseId id } id .delete (some old.snapshot)
      none none now)

/-- Start anew over what is stored, with settings and a range. The answer is how many ports are held. -/
def reopen (s : Roster) (settings : EngineSettings) (range : PortSettings) (now : Instant) :
    Except StoreError Nat × Roster :=
  let (restored, ports) := s.ports.reopen range now
  (restored, { s with settings, ports })

end Roster

end ProxyFleet

import ProxyFleet.Nodes.Roster
import ProxyFleet.Subscription.Render
import ProxyFleet.Sync.Status
import ProxyFleet.Sync.Traffic
import ProxyFleet.Sync.Users

/-!
# The fleet

A `Fleet` is everything there is: the settings, the nodes with their ports, the users with their
traffic, and the nodes' agents.

* `offered`, `Fleet.subscription` : the nodes that a user gets, and their rendering;
* `Fleet.syncStops`, `Fleet.syncNode`, `Fleet.pullNode` : one node's agent;
* `Fleet.syncAllStops`, `Fleet.syncAll`, `Fleet.pullAll` : every agent, whatever becomes of the others;
* `Fleet.reopen` : the services start anew over what is stored.

A program stops where it has to decide on a user whose use is beyond 64 bits (`User.eligible?`), and does
nothing further. Rendering and bringing agents in line are stated for programs that go on: what they give
where the program stops is what they would give without that user, and is never shown.
-/

namespace ProxyFleet

set_option autoImplicit false

/-- Everything there is. -/
structure Fleet where
  settings : Settings
  roster : Roster
  ledger : Ledger := {}
  agents : Agents := {}

/-- The nodes that a user gets at a moment: none if the user may not connect, else those of the
user's group. -/
def offered (nodes : List Node) (u : User) (now : Instant) : List Node :=
  if u.isEligible now then nodes.filter (·.servesGroup u.group) else []

namespace Fleet

/-- A fleet without nodes or users. -/
def empty (settings : Settings) : Fleet where
  settings := settings
  roster := { settings := settings.engine, ports := { range := settings.ports } }

/-- The services start anew over what is stored, with settings. The answer is how many ports are
held. -/
def reopen (s : Fleet) (settings : Settings) (now : Instant) : Except StoreError Nat × Fleet :=
  let (restored, roster) := s.roster.reopen settings.engine settings.ports now
  (restored, { s with settings, roster })

/-! ## Subscriptions -/

/-- The body of a user's subscription in a format. -/
def subscription (s : Fleet) (u : User) (format : Subscription.Format) (now : Instant) :
    Except StoreError String := do
  let nodes ← s.roster.nodes.list now
  let servers := (offered nodes u now).map Node.toServer
  return Subscription.render format servers u.uuid s.settings.engine

/-! ## Agents -/

/-- Whether the program stops over one of the users that the agent of a node may have to hold. Nothing has
been asked of the agent then. -/
def syncStops (s : Fleet) (n : Node) (now : Instant) : Bool :=
  !n.groups.isEmpty && (s.ledger.users.inGroups n.groups now).any fun u => (u.eligible? now).isNone

/-- Bring the users of a node's agent in line. -/
def syncNode (s : Fleet) (n : Node) (now : Instant) : Except SyncError SyncReport × Fleet :=
  let (report, agents) := s.agents.syncUsers s.ledger.users s.settings.agents n now
  (report.mapError .agent, { s with agents })

/-- Collect the traffic of a node. -/
def pullNode (s : Fleet) (n : Node) (now : Instant) : Except SyncError CommitSummary × Fleet :=
  let (summary, c) := Collection.pull ⟨s.ledger, s.agents⟩ s.settings.agents n now
  (summary, { s with ledger := c.ledger, agents := c.agents })

/-- The state of a node's agent. -/
def nodeStatus (s : Fleet) (n : Node) : NodeStatus × Fleet :=
  let (status, agents) := s.agents.status s.settings.agents n
  (status, { s with agents })

/-- A user as the agent of a node knows it. -/
def remoteUser (s : Fleet) (n : Node) (uuid : String) : Except SyncError (Option RemoteUser) × Fleet :=
  let (user, agents) := s.agents.call (Endpoint.ofNode n s.settings.agents) (.get uuid)
  (user.mapError .agent, { s with agents })

/-- Do something for every node that is stored, each on what the one before left. -/
def forEachNode (s : Fleet) (act : Fleet → Node → Fleet) (now : Instant) : Except SyncError Unit × Fleet :=
  match s.roster.nodes.list now with
  | .error e => (.error (.store e), s)
  | .ok nodes => (.ok (), nodes.foldl act s)

/-- Whether the program stops over one of the users of any agent. -/
def syncAllStops (s : Fleet) (now : Instant) : Bool :=
  (s.roster.nodes.list now).toOption.any (·.any fun n => s.syncStops n now)

/-- Bring the users of every agent in line. -/
def syncAll (s : Fleet) (now : Instant) : Except SyncError Unit × Fleet :=
  s.forEachNode (fun s n => (s.syncNode n now).2) now

/-- Collect the traffic of every node. -/
def pullAll (s : Fleet) (now : Instant) : Except SyncError Unit × Fleet :=
  s.forEachNode (fun s n => (s.pullNode n now).2) now

end Fleet

end ProxyFleet

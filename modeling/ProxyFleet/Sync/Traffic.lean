import ProxyFleet.Agent.Memory
import ProxyFleet.Traffic.Ledger

/-!
# Collecting traffic

* `rated`, `ratedTraffic` : what an agent has counted, multiplied by the node's rate;
* `Collection.pull` : the batches that are still staged are committed, then the agent is asked for
  what it has counted; that is staged and committed too.
-/

namespace ProxyFleet

set_option autoImplicit false

/-- Bytes multiplied by a rate and rounded, a half away from zero. -/
def rated (bytes : Int) (rate : Binary64) : Int :=
  Word64.ofDouble ((Binary64.ofInt bytes).mul rate)

/-- What an agent has counted, multiplied by the node's rate. Only users of whom something was
counted appear. -/
def ratedTraffic (n : Node) (stats : RemoteStats) : Traffic where
  protocol := n.protocolName
  rate := n.effectiveRate
  upload := rated stats.uplinkBytes n.effectiveRate
  download := rated stats.downlinkBytes n.effectiveRate
  users := (stats.users.filter fun u => 0 < u.uplinkBytes || 0 < u.downlinkBytes).map fun u =>
    ⟨u.username, rated u.uplinkBytes n.effectiveRate, rated u.downlinkBytes n.effectiveRate⟩

/-- Nothing was counted. -/
def Traffic.isNothing (t : Traffic) : Bool := t.upload == 0 && t.download == 0 && t.users.isEmpty

/-- Why traffic could not be collected, or users not be brought in line. -/
inductive SyncError where
  | store (error : StoreError)
  | agent (error : AgentError)

/-- The text on what could not be done. -/
def SyncError.message : SyncError → String
  | store e => s!"Store error: {e.message}"
  | agent e => s!"Agent error: {e.message}"

/-- The books, and the agents whose traffic goes into them. -/
structure Collection where
  ledger : Ledger
  agents : Agents

namespace Collection

/-- Stage and commit what was counted, if anything was. -/
def settle (s : Collection) (n : Node) (t : Traffic) (now : Instant) : CommitSummary × Collection :=
  if t.isNothing then ({}, s)
  else
    let (id, ledger) := s.ledger.stage n.id now.day t now
    let (summary, ledger) := ledger.commit ⟨id, n.id, now.day, t⟩
    (summary, { s with ledger })

/-- Collect the traffic of a node. -/
def pull (s : Collection) (settings : AgentSettings) (n : Node) (now : Instant) :
    Except SyncError CommitSummary × Collection :=
  match s.ledger.staged n.id with
  | .error e => (.error (.store e), s)
  | .ok batches =>
    let (replayed, ledger) := s.ledger.commitAll batches
    match s.agents.call (Endpoint.ofNode n settings) (.stats true) with
    | (.error e, agents) => (.error (.agent e), ⟨ledger, agents⟩)
    | (.ok stats, agents) =>
      let (settled, s) := settle ⟨ledger, agents⟩ n (ratedTraffic n stats) now
      (.ok (replayed.add settled), s)

end Collection

end ProxyFleet

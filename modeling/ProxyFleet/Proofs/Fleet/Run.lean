import ProxyFleet.Fleet.Basic
import ProxyFleet.Proofs.Nodes.Run

/-!
# Runs of calls on the fleet

Nodes, users and traffic change by calls, each at its moment. What agents hold, have counted and refuse
may be anything at any time, and a batch may be committed by anyone who has a copy of it, or made one up.

* `FleetCall`, `Fleet.call`, `Fleet.run` : a call on the fleet, and calls one after the other;
* `Fleet.forEachNode_keeps`, `Fleet.run_keeps` : what each step keeps, a pass over the nodes and a run keep.
-/

namespace ProxyFleet

set_option autoImplicit false

/-- A call on the fleet, or a change of what surrounds it. -/
inductive FleetCall where
  | roster (call : RosterCall)
  | addUser (uuid token : String) (draft : UserDraft)
  /-- Keep traffic of a node, as a pull does that stops before it commits. -/
  | stage (node : Int) (day : Day) (traffic : Traffic)
  | commit (b : TrafficBatch)
  | pull (n : Node)
  | pullAll
  /-- The agents become others. -/
  | agents (agents : Agents)

namespace Fleet

/-- What a call leaves. -/
def call (s : Fleet) (now : Instant) : FleetCall → Fleet
  | .roster c => { s with roster := s.roster.call now c }
  | .addUser uuid token draft =>
    match s.ledger.users.add uuid token draft now with
    | .error _ => s
    | .ok (_, users) => { s with ledger := { s.ledger with users } }
  | .stage node day traffic => { s with ledger := (s.ledger.stage node day traffic now).2 }
  | .commit b => { s with ledger := (s.ledger.commit b).2 }
  | .pull n => (s.pullNode n now).2
  | .pullAll => (s.pullAll now).2
  | .agents agents => { s with agents }

/-- Calls one after the other, each at its moment. -/
def run (s : Fleet) (calls : List (Instant × FleetCall)) : Fleet :=
  calls.foldl (fun s c => s.call c.1 c.2) s

variable {s : Fleet} {P : Fleet → Prop}

/-- What is kept for each node is kept by a pass over the nodes. -/
theorem forEachNode_keeps {act : Fleet → Node → Fleet} (hact : ∀ s n, P s → P (act s n)) (now : Instant)
    (h : P s) : P (s.forEachNode act now).2 := by
  unfold forEachNode
  cases s.roster.nodes.list now with
  | error e => exact h
  | ok nodes => exact List.foldlRecOn nodes act h fun s hs n _ => hact s n hs

/-- What each call keeps is kept by a run. -/
theorem run_keeps {calls : List (Instant × FleetCall)} (hcall : ∀ s, ∀ c ∈ calls, P s → P (s.call c.1 c.2))
    (h : P s) : P (s.run calls) :=
  List.foldlRecOn calls _ h fun s hs c hc => hcall s c hc hs

end Fleet

end ProxyFleet

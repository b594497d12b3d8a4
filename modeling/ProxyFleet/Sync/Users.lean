import ProxyFleet.Agent.Memory
import ProxyFleet.Users.Basic

/-!
# Bringing agents' users in line

The users that an agent should hold are the eligible ones of the node's groups, each with a secret.
Where an agent holds other ones, it is told, name by name.

* `expectedUsers` : the users an agent should hold;
* `syncPlan` : the changes that bring an agent in line, one for each name that differs;
* `Agents.syncUsers` : the changes are asked for; one that fails is counted and the others go on.
-/

namespace ProxyFleet

set_option autoImplicit false

/-- Users by name, in the order of their names, with their secrets. -/
abbrev Secrets := List (String × String)

namespace Secrets

/-- Put a user among users in order, in place of one of that name. -/
def insert (username secret : String) : Secrets → Secrets
  | [] => [(username, secret)]
  | (u, s) :: rest =>
    if username < u then (username, secret) :: (u, s) :: rest
    else if u < username then (u, s) :: insert username secret rest
    else (username, secret) :: rest

/-- Users in order; of several with one name the last stays. -/
def ofList (users : List (String × String)) : Secrets :=
  users.foldl (fun sorted (u, s) => insert u s sorted) []

/-- The secret of a user. -/
def find? (s : Secrets) (username : String) : Option String :=
  (List.find? (·.1 == username) s).map (·.2)

end Secrets

/-- The secret that an agent should hold for a user. -/
def expectedSecret (n : Node) (u : User) : String :=
  match n.params with
  | .shadowsocks p => UserKey.agentSecret p.method u.uuid
  | _ => u.uuid

/-- The users that the agent of a node should hold. -/
def expectedUsers (users : UserTable) (n : Node) (now : Instant) : Secrets :=
  Secrets.ofList (((users.inGroups n.groups now).filter (·.isEligible now)).map fun u =>
    (u.uuid, expectedSecret n u))

/-- A change to an agent's users. -/
inductive UserChange where
  | add (username secret : String)
  | update (username secret : String)
  | delete (username : String)
  deriving DecidableEq

/-- The request for a change. -/
def UserChange.request : UserChange → AgentRequest Unit
  | add username secret => .add username secret
  | update username secret => .update username secret
  | delete username => .delete username

/-- The changes that bring an agent's users in line: additions and updates by name, then
deletions by name. -/
def syncPlan (expected actual : Secrets) : List UserChange :=
  let needed := expected.filterMap fun (username, secret) =>
    match actual.find? username with
    | none => some (.add username secret)
    | some held => if held ≠ secret then some (.update username secret) else none
  let foreign := actual.filterMap fun (username, _) =>
    if (expected.find? username).isNone then some (.delete username) else none
  needed ++ foreign

/-- What became of the calls of a plan. -/
structure SyncReport where
  added : Nat := 0
  updated : Nat := 0
  deleted : Nat := 0
  failed : Nat := 0
  deriving DecidableEq

namespace SyncReport

/-- Nothing had to be done. -/
def isNoop (r : SyncReport) : Bool := r == {}

/-- The report with one more change that was asked for. -/
def count (r : SyncReport) (change : UserChange) (succeeded : Bool) : SyncReport :=
  if !succeeded then { r with failed := r.failed + 1 }
  else
    match change with
    | .add _ _ => { r with added := r.added + 1 }
    | .update _ _ => { r with updated := r.updated + 1 }
    | .delete _ => { r with deleted := r.deleted + 1 }

/-- The document of a report. -/
def toJson (r : SyncReport) : Json :=
  .obj [("added", .nat r.added), ("updated", .nat r.updated), ("deleted", .nat r.deleted),
    ("failed", .nat r.failed)]

end SyncReport

namespace Agents

/-- Ask for the changes of a plan. -/
def run (s : Agents) (e : Endpoint) (plan : List UserChange) : SyncReport × Agents :=
  plan.foldl (fun (report, s) change =>
    let (answer, s) := s.call e change.request
    (report.count change answer.isOk, s)) ({}, s)

/-- Bring the users of a node's agent in line. A node without groups is left alone. -/
def syncUsers (s : Agents) (users : UserTable) (settings : AgentSettings) (n : Node) (now : Instant) :
    Except AgentError SyncReport × Agents :=
  if n.groups.isEmpty then (.ok {}, s)
  else
    let e := Endpoint.ofNode n settings
    match s.call e .list with
    | (.error err, s) => (.error err, s)
    | (.ok held, s) =>
      let actual := Secrets.ofList (held.map fun u => (u.username, u.secret))
      let (report, s) := s.run e (syncPlan (expectedUsers users n now) actual)
      (.ok report, s)

end Agents

end ProxyFleet

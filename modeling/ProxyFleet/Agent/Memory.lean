import ProxyFleet.Agent.Call

/-!
# Agents in memory

`Agents` are the agents of a fleet by their addresses, with a record of the calls that were made. A
call that an agent refuses is recorded and changes nothing else.
-/

namespace ProxyFleet

set_option autoImplicit false

/-- An agent: its users, what it has counted, and which calls it refuses. -/
structure Agent where
  info : AgentInfo := {}
  users : List RemoteUser := []
  stats : RemoteStats := {}
  refuses : AgentAction → Bool := fun _ => false

/-- A call that was made. -/
structure AgentCall where
  endpoint : Endpoint
  action : AgentAction
  deriving DecidableEq

/-- An agent's answer to a request, and the agent after it. -/
def Agent.answer {α : Type} (a : Agent) : AgentRequest α → α × Agent
  | .info => (a.info, a)
  | .list => (a.users, a)
  | .get username => (a.users.find? (·.username == username), a)
  | .add username secret => ((), { a with users := a.users ++ [{ username, secret }] })
  | .update username secret =>
    ((), { a with users := a.users.map fun u => if u.username == username then { u with secret } else u })
  | .delete username => ((), { a with users := a.users.filter (·.username != username) })
  | .stats clear => (a.stats, if clear then { a with stats := {} } else a)

/-- The agents of a fleet, and the calls that were made. -/
structure Agents where
  agents : List (String × Agent) := []
  calls : List AgentCall := []

namespace Agents

/-- The agent at an address, if it was ever called or set up. -/
def find? (s : Agents) (baseUrl : String) : Option Agent :=
  (s.agents.find? (·.1 == baseUrl)).map (·.2)

/-- The agent at an address; one that was never called is empty. -/
def get (s : Agents) (baseUrl : String) : Agent := (s.find? baseUrl).getD {}

/-- The agents with one of them put in its place. -/
def set (s : Agents) (baseUrl : String) (a : Agent) : Agents :=
  { s with
    agents :=
      if s.agents.any (·.1 == baseUrl) then
        s.agents.map fun (url, b) => if url == baseUrl then (url, a) else (url, b)
      else s.agents ++ [(baseUrl, a)] }

/-- Call an agent. -/
def call {α : Type} (s : Agents) (e : Endpoint) (r : AgentRequest α) : Except AgentError α × Agents :=
  let agent := s.get e.baseUrl
  let s : Agents := { s with calls := s.calls ++ [{ endpoint := e, action := r.action }] }
  if agent.refuses r.action then
    (.error (.status 503 s!"{r.action.name} refused"), s.set e.baseUrl agent)
  else
    let (answer, agent) := agent.answer r
    (.ok answer, s.set e.baseUrl agent)

end Agents

end ProxyFleet

import ProxyFleet.Agent.Wire
import ProxyFleet.Nodes.Basic
import ProxyFleet.Settings.Basic

/-!
# Calling agents

* `Endpoint.ofNode` : where the agent of a node is, and the token it takes;
* `AgentRequest` : what an agent can be asked, with the type of its answer;
* `AgentError` : why there is no answer.
-/

namespace ProxyFleet

set_option autoImplicit false

/-- Where an agent is called, and with which token. -/
structure Endpoint where
  baseUrl : String
  token : Option String
  deriving DecidableEq

/-- A text without the slashes at its end. -/
def dropSlashes (s : String) : String :=
  String.ofList (s.toList.reverse.dropWhile (· == '/')).reverse

/-- The agent of a node: at its own address if it has one, else at the node's host and the port for
agents, under the name of the protocol. -/
def Endpoint.ofNode (n : Node) (settings : AgentSettings) : Endpoint where
  baseUrl :=
    match n.agentUrl.filter (!·.isEmpty) with
    | some url => dropSlashes url
    | none =>
      let host := if n.host.toList.contains ':' then s!"[{n.host}]" else n.host
      s!"http://{host}:{settings.port}/{n.protocolName}"
  token := n.agentToken.or settings.token

/-- What an agent can be asked. -/
inductive AgentRequest : Type → Type where
  | info : AgentRequest AgentInfo
  | list : AgentRequest (List RemoteUser)
  | get (username : String) : AgentRequest (Option RemoteUser)
  | add (username secret : String) : AgentRequest Unit
  | update (username secret : String) : AgentRequest Unit
  | delete (username : String) : AgentRequest Unit
  /-- What was counted; if asked to, the agent then starts from zero. -/
  | stats (clear : Bool) : AgentRequest RemoteStats

/-- What was asked of an agent, in words. -/
structure AgentAction where
  name : String
  args : List String
  deriving DecidableEq

/-- A request in words. -/
def AgentRequest.action {α : Type} : AgentRequest α → AgentAction
  | info => ⟨"info", []⟩
  | list => ⟨"list", []⟩
  | get username => ⟨"get", [username]⟩
  | add username secret => ⟨"add", [username, secret]⟩
  | update username secret => ⟨"update", [username, secret]⟩
  | delete username => ⟨"delete", [username]⟩
  | stats clear => ⟨"stats", [if clear then "clear" else "keep"]⟩

/-- Whether an action is among some that are named, with or without the first argument. -/
def AgentAction.isAmong (a : AgentAction) (names : List String) : Bool :=
  names.any fun s => s == a.name || a.args.head?.any fun arg => s == s!"{a.name}:{arg}"

/-- Why an agent gave no answer. -/
inductive AgentError where
  /-- It could not be reached, or its answer could not be read. -/
  | transport (reason : String)
  | status (code : Nat) (body : String)
  deriving DecidableEq

/-- The text on an agent that gave no answer. -/
def AgentError.message : AgentError → String
  | transport reason => s!"HTTP error: {reason}"
  | status code body => s!"agent returned {code}: {body}"

end ProxyFleet

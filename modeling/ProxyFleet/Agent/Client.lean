import ProxyFleet.Agent.Call
import ProxyFleet.Identity
import ProxyFleet.Json.Printer
import ProxyFleet.Json.Reader
import ProxyFleet.Net.RequestTarget

/-!
# The agents' protocol

How a request to an agent is sent, and how the response is read. What carries requests is given as
an `HttpTransport`.

* `AgentRequest.toHttp?` : the request that is sent;
* `AgentRequest.readResponse` : the answer that a response holds;
* `AgentRequest.send` : both, over a transport.
-/

namespace ProxyFleet

set_option autoImplicit false

/-- A request as it is sent. -/
structure HttpRequest where
  method : String
  /-- Path and query. -/
  target : String
  authorization : Option String
  contentType : Option String
  userAgent : String
  body : Option Json

/-- A response as it is received. -/
structure HttpResponse where
  status : Nat
  body : String

/-- Carries a request to a server, if that can be reached. -/
abbrev HttpTransport := HttpRequest → Option HttpResponse

/-- The name under which agents are called. -/
def agentClientName : String := s!"{serviceName}/{serviceVersion}"

/-- A text that can be the value of a header: no control characters but the tab. -/
def isHeaderValue (s : String) : Bool :=
  s.toList.all fun c => c = '\t' || (32 ≤ c.toNat && c.toNat ≠ 127)

namespace AgentRequest

/-- The path of a user. -/
def userPath (username : String) : String := s!"/users/{Text.percentEncode username}"

/-- The method of a request. -/
def method {α : Type} : AgentRequest α → String
  | add _ _ => "POST"
  | update _ _ => "PUT"
  | delete _ => "DELETE"
  | _ => "GET"

/-- The path of a request under the agent's interface. -/
def path {α : Type} : AgentRequest α → String
  | info => "/"
  | list => "/users"
  | get username => userPath username
  | add _ _ => "/users"
  | update username _ => userPath username
  | delete username => userPath username
  | stats clear => if clear then "/stats?clear=true" else "/stats"

/-- The document that is sent with a request. -/
def body? {α : Type} : AgentRequest α → Option Json
  | add username secret => some (.obj [("username", .str username), ("uPSK", .str secret)])
  | update username secret => some (.obj [("username", .str username), ("uPSK", .str secret)])
  | _ => none

/-- The request that is sent, unless address or token cannot be used. -/
def toHttp? {α : Type} (e : Endpoint) (r : AgentRequest α) : Option HttpRequest := do
  let target ← Net.requestTarget? s!"{e.baseUrl}/server/v1{r.path}"
  let authorization := e.token.map fun token => s!"Bearer {token}"
  guard (authorization.all isHeaderValue)
  return { method := r.method, target, authorization
           contentType := r.body?.map fun _ => "application/json"
           userAgent := agentClientName, body := r.body? }

/-- The typed value of a body. -/
def readBody {α : Type} (d : Decoder α) (body : String) : Except AgentError α :=
  match Json.parseRaw? body with
  | none => .error (.transport "error decoding response body")
  | some v => (d v).mapError fun _ => .transport "error decoding response body"

/-- The answer that a response holds: a status other than of success is an error, but a user who is
not found is none. -/
def readResponse {α : Type} (r : AgentRequest α) (response : HttpResponse) : Except AgentError α :=
  let refused : AgentError := .status response.status response.body
  let ok : Bool := 200 ≤ response.status && response.status < 300
  match r with
  | info => if ok then readBody AgentInfo.decoder response.body else .error refused
  | list => if ok then readBody RemoteUser.listDecoder response.body else .error refused
  | get _ =>
    if response.status = 404 then .ok none
    else if ok then (readBody RemoteUser.decoder response.body).map some
    else .error refused
  | add _ _ => if ok then .ok () else .error refused
  | update _ _ => if ok then .ok () else .error refused
  | delete _ => if ok then .ok () else .error refused
  | stats _ => if ok then readBody RemoteStats.decoder response.body else .error refused

/-- Send a request. The answer comes with the request that was sent, if one was. -/
def send {α : Type} (transport : HttpTransport) (e : Endpoint) (r : AgentRequest α) :
    Option HttpRequest × Except AgentError α :=
  match toHttp? e r with
  | none => (none, .error (.transport "builder error"))
  | some request =>
    match transport request with
    | none => (none, .error (.transport "error sending request"))
    | some response => (some request, r.readResponse response)

end AgentRequest

end ProxyFleet

import ProxyFleet.Api.Message
import ProxyFleet.Fleet.Basic
import ProxyFleet.Identity

/-!
# The service

* `Route.ofSegments?` : what a path stands for;
* `NodeError.status` : the status for a request about a node that failed;
* `Fleet.respond` : the response to a request, and what becomes of the fleet. There is none where the
  program stops.

A path that stands for nothing is 404, and a method that its route does not have is 405, before
anything else of the request is looked at.
-/

namespace ProxyFleet

set_option autoImplicit false

/-! ## Routes -/

/-- What a path stands for, with the parts of the path that vary as they are written. -/
inductive Route where
  | health
  | protocols
  | ports
  | portMetrics
  | portHistory (port : String)
  | nodes
  | node (id : String)
  | nodeConfig (id : String)
  | nodeHistory (id : String)
  | nodeStatus (id : String)
  | validation
  | subscription (token : String)

namespace Route

/-- A part that varies has to be there. -/
def withPart? (route : String → Route) (part : String) : Option Route :=
  if part.isEmpty then none else some (route part)

/-- What a path stands for. -/
def ofSegments? : List String → Option Route
  | ["health"] => some health
  | ["v1", "protocols"] => some protocols
  | ["v1", "ports"] => some ports
  | ["v1", "ports", "metrics"] => some portMetrics
  | ["v1", "ports", port, "history"] => withPart? portHistory port
  | ["v1", "nodes"] => some nodes
  | ["v1", "nodes", id] => withPart? node id
  | ["v1", "nodes", id, "config"] => withPart? nodeConfig id
  | ["v1", "nodes", id, "history"] => withPart? nodeHistory id
  | ["v1", "nodes", id, "status"] => withPart? nodeStatus id
  | ["v1", "config", "validate"] => some validation
  | ["v1", "subscribe", token] => withPart? subscription token
  | _ => none

/-- The methods of a route. -/
def methods : Route → List String
  | nodes => ["GET", "HEAD", "POST"]
  | node _ => ["GET", "HEAD", "PATCH", "DELETE"]
  | validation => ["POST"]
  | _ => ["GET", "HEAD"]

end Route

/-! ## Parts of requests and responses -/

/-- A part of a path that was read, or the status for one that cannot be. -/
def readPart {α : Type} (read : String → Option α) (part : String) : Except ApiResponse α :=
  match (Text.percentDecode? part).bind read with
  | some a => .ok a
  | none => .error { status := 400 }

/-- The id of a node in a path. -/
def readId : String → Except ApiResponse Int := readPart Text.i64?

/-- How many rows of a history are asked for; fifty if nothing is said. -/
def ApiRequest.limit (r : ApiRequest) : Except ApiResponse Int := do
  match ← r.query? "limit" with
  | none => return 50
  | some s => readPartValue s
where
  /-- A number of rows. -/
  readPartValue (s : String) : Except ApiResponse Int :=
    match Text.i64? s with
    | some n => .ok n
    | none => .error { status := 400 }

/-- The status for a failure of the store. -/
def StoreError.status : StoreError → Nat
  | notFound _ => 404
  | _ => 500

/-- The status for a request about a node that failed. -/
def NodeError.status : NodeError → Nat
  | notFound _ => 404
  | param _ | invalid _ | invalidConfig _ => 400
  | port (.outOfRange _ _ _) => 400
  | port (.conflict _ _ _) | port (.exhausted _ _ _) | port (.unavailable _) => 409
  | port (.store _) => 500
  | store e => e.status

/-- The value, or the response to a failure of the store. -/
def orStoreError {α : Type} (r : Except StoreError α) : Except ApiResponse α :=
  r.mapError fun e => .error e.status e.message

/-- The value, or the response to a failed request about a node. -/
def orNodeError {α : Type} (r : Except NodeError α) : Except ApiResponse α :=
  r.mapError fun e => .error e.status e.message

/-- The response that was reached, be it by a failure. -/
def reached {α : Type} : Except α α → α
  | .ok r => r
  | .error r => r

/-! ## Reading -/

/-- The protocols and their parameters. -/
def protocolList : Json :=
  .arr (Protocol.all.map fun p => .obj [("protocol", .str p.name),
    ("required", .strings p.requiredParams), ("optional", .strings p.optionalParams)])

/-- A user's client name, as far as it is printable ASCII. -/
def ApiRequest.client? (r : ApiRequest) : Option String :=
  (r.header? "user-agent").filter fun s =>
    s.toList.all fun c => c == '\t' || (32 ≤ c.toNat && c.toNat < 127)

namespace Fleet

/-- The subscription of the user with a token. There is none where the program stops over the user. -/
def respondSubscription (s : Fleet) (r : ApiRequest) (token : String) (now : Instant) :
    Except ApiResponse (Option ApiResponse) := do
  let token ← readPart some token
  let named ← r.query? "format"
  let some user := s.ledger.users.ofToken? token now
    | throw (.error 404 "unknown subscription token")
  let some eligible := user.eligible? now | return none
  if !eligible then throw (.error 403 "subscription is not active")
  let format := Subscription.Format.select named r.client?
  let content ← orStoreError (s.subscription user format now)
  return some {
    status := 200
    body := .text format.contentType content
    headers := [("subscription-userinfo", user.usage),
      ("profile-update-interval", toString s.settings.subscription.updateInterval)] }

/-- The response to a request that changes nothing, and over which no program stops. -/
def respondRead (s : Fleet) (r : ApiRequest) (route : Route) (now : Instant) :
    Except ApiResponse ApiResponse := do
  match route with
  | .health =>
    return .json (.obj [("status", .str "healthy"), ("version", .str serviceVersion)]) 200
  | .protocols => return .json protocolList 200
  | .ports => return .json (.arr (s.roster.ports.held.map (·.toJson))) 200
  | .portMetrics => return .json s.roster.ports.metrics.toJson 200
  | .portHistory port =>
    let port ← readPart (fun s => (Text.u16? s).map UInt16.ofNat) port
    let history ← orStoreError (s.roster.ports.table.portHistory port (← r.limit) now)
    return .json (.arr (history.map (·.toJson))) 200
  | .nodes =>
    let nodes ← orNodeError (s.roster.list now)
    return .json (.arr (nodes.map (·.toJson))) 200
  | .node id =>
    let node ← orNodeError (s.roster.find (← readId id) now)
    return .json node.toJson 200
  | .nodeConfig id =>
    let id ← readId id
    let document ← orNodeError (s.roster.config id now)
    return .json (.obj [("node_id", .int id), ("validation", document.validate.toJson),
      ("config", document.toJson)]) 200
  | .nodeHistory id =>
    let id ← readId id
    let history ← orNodeError (s.roster.historyOf id (← r.limit) now)
    return .json (.arr (history.map (·.toJson))) 200
  | .validation =>
    let document ← r.readBody Decoder.any
    return .json (Engine.Document.validateJson document.sorted).toJson 200
  | .subscription _ | .nodeStatus _ => throw { status := 405 }

/-! ## Changes -/

/-- Ask the agent of a node for its state. -/
def respondStatus (s : Fleet) (id : String) (now : Instant) : ApiResponse × Fleet :=
  match readId id >>= fun id => orNodeError (s.roster.find id now) with
  | .error response => (response, s)
  | .ok node =>
    let (status, s) := s.nodeStatus node
    (.json status.toJson 200, s)

/-- Add a node. -/
def respondCreate (s : Fleet) (refused : UInt16 → Bool) (r : ApiRequest) (now : Instant) :
    ApiResponse × Fleet :=
  match r.readBody NodeRequest.decoder with
  | .error response => (response, s)
  | .ok request =>
    let (node, roster) := s.roster.create refused request now
    (reached ((orNodeError node).map fun n => .json n.toJson 201), { s with roster })

/-- Change a node. -/
def respondUpdate (s : Fleet) (refused : UInt16 → Bool) (r : ApiRequest) (id : String) (now : Instant) :
    ApiResponse × Fleet :=
  match readId id >>= fun id => (r.readBody NodeChange.decoder).map (id, ·) with
  | .error response => (response, s)
  | .ok (id, change) =>
    let (node, roster) := s.roster.update refused id change now
    (reached ((orNodeError node).map fun n => .json n.toJson 200), { s with roster })

/-- Remove a node. -/
def respondDelete (s : Fleet) (id : String) (now : Instant) : ApiResponse × Fleet :=
  match readId id with
  | .error response => (response, s)
  | .ok id =>
    let (ports, roster) := s.roster.delete id now
    let written (ports : List UInt16) : ApiResponse :=
      .json (.obj [("deleted", .int id), ("released_ports", .arr (ports.map fun p => .nat p.toNat))]) 200
    (reached ((orNodeError ports).map written), { s with roster })

/-- The response to a request whose route has its method, other than one for a subscription. -/
def respondRoute (s : Fleet) (refused : UInt16 → Bool) (r : ApiRequest) (route : Route) (now : Instant) :
    ApiResponse × Fleet :=
  match route, r.method with
  | .nodes, "POST" => s.respondCreate refused r now
  | .node id, "PATCH" => s.respondUpdate refused r id now
  | .node id, "DELETE" => s.respondDelete id now
  | .nodeStatus id, _ => s.respondStatus id now
  | route, _ => (reached (s.respondRead r route now), s)

/-- The response to a request, and what becomes of the fleet. There is none where the program stops. -/
def respond (s : Fleet) (refused : UInt16 → Bool) (r : ApiRequest) (now : Instant) :
    Option ApiResponse × Fleet :=
  match Route.ofSegments? r.segments with
  | none => (some { status := 404 }, s)
  | some route =>
    if !route.methods.contains r.method then (some { status := 405 }, s)
    else
      let (response, s) :=
        match route with
        | .subscription token => (reached ((s.respondSubscription r token now).mapError some), s)
        | route =>
          let (response, s) := s.respondRoute refused r route now
          (some response, s)
      (if r.method = "HEAD" then response.map (·.withoutBody) else response, s)

end Fleet

end ProxyFleet

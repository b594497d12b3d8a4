import ProxyFleet.Protocol.Params
import ProxyFleet.Protocol.UserKey

/-!
# Servers of a subscription

A `Server` is a node as a subscriber sees it. `Server.forUser` puts the subscriber's credential in
place of the node's own; every format is rendered from that.
-/

namespace ProxyFleet.Subscription

set_option autoImplicit false

/-- A node as a subscriber sees it. -/
structure Server where
  name : String
  host : String
  port : UInt16
  params : Params

/-- The password with which a user connects: for AEAD-2022 both keys, otherwise the uuid. -/
def passwordFor (params : Params) (uuid : String) : String :=
  match params with
  | .shadowsocks p => UserKey.clientPassword p.method p.password uuid
  | _ => uuid

/-- The server with a user's credential. -/
def Server.forUser (s : Server) (uuid : String) : Server :=
  { s with params := s.params.withCredential uuid (passwordFor s.params uuid) }

end ProxyFleet.Subscription

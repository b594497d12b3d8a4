import ProxyFleet.Engine.Assembly
import ProxyFleet.Subscription.Clash
import ProxyFleet.Subscription.Format
import ProxyFleet.Subscription.Loon
import ProxyFleet.Subscription.QuantumultX
import ProxyFleet.Subscription.ShareLink
import ProxyFleet.Subscription.Surge

/-!
# Rendering a subscription

`Subscription.render` is the body of a subscription in a format, for one user.
-/

namespace ProxyFleet.Subscription

set_option autoImplicit false

/-- A server as a node of an engine document. -/
def Server.toEntry (s : Server) : Engine.NodeEntry := ⟨s.name, s.host, s.port, s.params⟩

/-- The body in a format of servers that hold a user's credential. -/
def body (format : Format) (servers : List Server) (settings : EngineSettings) : String :=
  match format with
  | .singBox => (Engine.Document.ofNodes (servers.map Server.toEntry) settings).toJson.pretty
  | .clash => Clash.render .plain servers
  | .clashMeta => Clash.render .extended servers
  | .surge => Surge.render .surge servers
  | .surfboard => Surge.render .surfboard servers
  | .quantumultX => QuantumultX.render servers
  | .loon => Loon.render servers
  | .base64 => ShareLink.render servers

/-- The body of the subscription to servers of a user with the given uuid. -/
def render (format : Format) (servers : List Server) (uuid : String) (settings : EngineSettings) :
    String :=
  body format (servers.map (·.forUser uuid)) settings

end ProxyFleet.Subscription

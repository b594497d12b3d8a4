import ProxyFleet.Json.Value
import ProxyFleet.Protocol.Params

/-!
# Engine documents

The configuration document of a proxy engine: how it logs, resolves names, listens, connects and
routes. Inbounds and outbounds keep the fields that have no place of their own in `extra`.
-/

namespace ProxyFleet.Engine

set_option autoImplicit false

/-- What is logged. -/
structure Log where
  level : String
  timestamp : Bool

/-- A name server, asked through the outbound `detour`. -/
structure DnsServer where
  tag : String := ""
  address : String := ""
  detour : Option String := none

/-- Which server resolves which names. -/
structure DnsRule where
  domainSuffix : List String := []
  geosite : List String := []
  server : String := ""

/-- Name resolution. -/
structure Dns where
  servers : List DnsServer := []
  rules : List DnsRule := []
  finalServer : Option String := none

/-- A local listener. -/
structure Inbound where
  kind : String := ""
  tag : String := ""
  listen : Option String := none
  listenPort : Option Int := none
  extra : JsonFields := []

/-- The transport of an outbound. -/
structure OutboundTransport where
  kind : String := ""
  path : Option String := none
  host : List String := []
  headers : List (String × String) := []
  serviceName : Option String := none
  maxEarlyData : Option UInt32 := none
  earlyDataHeader : Option String := none

/-- A way out: a proxy, a group of outbounds, or a built-in target. -/
structure Outbound where
  kind : String := ""
  tag : String := ""
  server : Option String := none
  serverPort : Option Int := none
  uuid : Option String := none
  password : Option String := none
  method : Option String := none
  security : Option String := none
  alterId : Option UInt16 := none
  flow : Option String := none
  packetEncoding : Option String := none
  tls : Option Tls := none
  transport : Option OutboundTransport := none
  members : Option (List String) := none
  extra : JsonFields := []

/-- Which connections take which outbound. -/
structure RouteRule where
  protocol : Option String := none
  ipIsPrivate : Option Bool := none
  geosite : List String := []
  geoip : List String := []
  domainSuffix : List String := []
  outbound : String := ""

/-- Routing. -/
structure Route where
  rules : List RouteRule := []
  finalOutbound : Option String := none
  autoDetectInterface : Bool := false

/-- A whole document. -/
structure Document where
  log : Option Log := none
  dns : Option Dns := none
  inbounds : List Inbound := []
  outbounds : List Outbound := []
  route : Option Route := none

/-- The outbound of a tag, the first if there are several. -/
def Document.outbound? (d : Document) (tag : String) : Option Outbound :=
  d.outbounds.find? (·.tag == tag)

end ProxyFleet.Engine

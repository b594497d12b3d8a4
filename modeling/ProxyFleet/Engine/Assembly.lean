import ProxyFleet.Engine.Outbound
import ProxyFleet.Engine.Validation
import ProxyFleet.Settings.Basic

/-!
# Assembling an engine document

`Document.ofNodes` is the document that offers a list of nodes: one outbound for each, a group to
choose from them, a group that takes the fastest, and the built-in targets.
-/

namespace ProxyFleet.Engine

set_option autoImplicit false

/-- The tag of the group that is chosen from. -/
def proxyTag : String := "proxy"

/-- The tag of the group that takes the fastest. -/
def autoTag : String := "auto"

/-- The tag of the direct connection. -/
def directTag : String := "direct"

/-- The tag of the target that drops connections. -/
def blockTag : String := "block"

/-- The tag of the target that answers name queries. -/
def dnsTag : String := "dns-out"

/-- The tags that a document defines whatever its nodes are, and no node may have. -/
def reservedTags : List String := [proxyTag, autoTag, directTag, blockTag, dnsTag]

/-- A node as a document shows it. -/
structure NodeEntry where
  tag : String
  server : String
  port : UInt16
  params : Params

/-- The outbound of a node. -/
def NodeEntry.toOutbound (n : NodeEntry) : Outbound := n.params.toOutbound n.tag n.server n.port

/-- Names under `.cn` are resolved nearby, all others by a server far away. -/
def dnsSection : Dns where
  servers := [
    { tag := "google", address := "https://dns.google/dns-query" },
    { tag := "cloudflare", address := "https://cloudflare-dns.com/dns-query", detour := proxyTag },
    { tag := "alidns", address := "https://dns.alidns.com/dns-query", detour := directTag },
    { tag := "local", address := "223.5.5.5", detour := directTag }]
  rules := [
    { domainSuffix := [".cn"], server := "local" },
    { geosite := ["cn"], server := "local" }]
  finalServer := "google"

/-- Name queries, private addresses and nearby sites do not take a proxy; all else does. -/
def routeSection : Route where
  rules := [
    { protocol := "dns", outbound := dnsTag },
    { ipIsPrivate := true, outbound := directTag },
    { geosite := ["cn"], outbound := directTag },
    { geoip := ["cn"], outbound := directTag }]
  finalOutbound := proxyTag
  autoDetectInterface := true

/-- The local listener. -/
def mixedInbound (port : UInt16) : Inbound :=
  { kind := "mixed", tag := "mixed-in", listen := "127.0.0.1", listenPort := some port.toNat
    extra := [("sniff", .bool true)] }

/-- The groups over the nodes' tags; without nodes only a direct connection can be chosen. -/
def groupOutbounds (tags : List String) : List Outbound :=
  if tags.isEmpty then [{ kind := "selector", tag := proxyTag, members := some [directTag] }]
  else
    [{ kind := "selector", tag := proxyTag, members := some (autoTag :: tags ++ [directTag])
       extra := [("default", .str autoTag)] },
     { kind := "urltest", tag := autoTag, members := some tags
       extra := [("interval", .str "5m"), ("tolerance", .nat 50),
         ("url", .str "https://www.gstatic.com/generate_204")] }]

/-- The built-in targets. -/
def builtinOutbounds : List Outbound :=
  [{ kind := "direct", tag := directTag }, { kind := "block", tag := blockTag },
   { kind := "dns", tag := dnsTag }]

/-- The document that offers the nodes. -/
def Document.ofNodes (nodes : List NodeEntry) (settings : EngineSettings) : Document where
  log := some { level := settings.logLevel, timestamp := true }
  dns := if settings.enableDns then some dnsSection else none
  inbounds := [mixedInbound settings.localPort]
  outbounds := nodes.map NodeEntry.toOutbound ++ groupOutbounds (nodes.map (·.tag)) ++ builtinOutbounds
  route := if settings.enableRoute then some routeSection else none

end ProxyFleet.Engine

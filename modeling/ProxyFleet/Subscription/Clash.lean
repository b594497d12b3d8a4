import ProxyFleet.Subscription.Server
import ProxyFleet.Yaml.Document

/-!
# Clash profiles

A profile lists the proxies that the dialect can express, a group to choose from them, and a group
that takes the fastest. The plain dialect knows fewer protocols than the extended one.

* `Clash.listing?` : the entry of one server, if the dialect can express it;
* `Clash.profile` : the proxies of a profile; `Clash.Profile.groups` : its groups;
* `Clash.render` : the text.
-/

namespace ProxyFleet.Subscription.Clash

set_option autoImplicit false

open Yaml (field?)

/-- The dialects: plain, and extended by further protocols. -/
inductive Dialect where
  | plain
  | extended
  deriving DecidableEq

/-- What every entry starts with. -/
def baseFields (s : Server) (kind : String) : Yaml.Fields :=
  [("name", .text s.name), ("type", .text kind), ("server", .text s.host),
   ("port", .number s.port.toNat)]

/-- The fields of TLS settings; `sniKey` is the name of the field for the server's name. -/
def tlsFields (dialect : Dialect) (sniKey : String) (tls : Tls) : Yaml.Fields :=
  field? sniKey (tls.serverName.map .text)
  ++ (if tls.insecure then [("skip-cert-verify", .bool true)] else [])
  ++ (if tls.alpn.isEmpty then [] else [("alpn", Yaml.texts tls.alpn)])
  ++ (if dialect = .extended then
        field? "client-fingerprint" ((tls.utls.filter (·.enabled)).map fun u => .text u.fingerprint)
      else [])

/-- The path of a transport. -/
def pathOf (t : Transport) : Yaml := .text (t.path.getD "/")

/-- The fields of a transport. -/
def transportFields (t : Transport) : Yaml.Fields :=
  match t.network with
  | .ws =>
    let headers := field? "headers" (t.firstHost?.map fun h => .map [("Host", .text h)])
    [("network", .text "ws"), ("ws-opts", .map (("path", pathOf t) :: headers))]
  | .grpc =>
    [("network", .text "grpc"),
     ("grpc-opts", .map (field? "grpc-service-name" (t.serviceName.map .text)))]
  | .h2 =>
    [("network", .text "h2"), ("h2-opts", .map [("host", Yaml.texts t.host), ("path", pathOf t)])]
  | .tcp =>
    let headers :=
      if t.host.isEmpty then [] else [("headers", .map [("Host", Yaml.texts t.host)])]
    [("network", .text "http"), ("http-opts", .map (("path", .list [pathOf t]) :: headers))]
  | .quic => []

/-- The plugin of a shadowsocks entry, by its name here and the option that tells its mode: no
plugin is an empty list of fields, and one that cannot be expressed is no list at all. -/
def pluginFields? (p : Shadowsocks) : Option Yaml.Fields :=
  let named (name modeKey : String) : Yaml.Fields :=
    let host := (p.option? "obfs-host").or (p.option? "host")
    [("plugin", .text name),
     ("plugin-opts", .map (field? "mode" ((p.option? modeKey).map .text)
       ++ field? "host" (host.map .text)))]
  match p.plugin with
  | none => some []
  | some plugin =>
    if ["obfs-local", "simple-obfs", "obfs"].contains plugin then some (named "obfs" "obfs")
    else if plugin = "v2ray-plugin" then some (named "v2ray-plugin" "mode")
    else none

/-- A bandwidth. -/
def bandwidth (mbps : UInt32) : Yaml := .text s!"{mbps} Mbps"

/-- The fields of TLS in force, for the protocols that can do without. -/
def optionalTlsFields (dialect : Dialect) (tls : Option Tls) : Yaml.Fields :=
  match tls with
  | none => []
  | some tls => ("tls", .bool true) :: tlsFields dialect "servername" tls

/-- The fields of a transport, if there is one. -/
def optionalTransportFields (t : Option Transport) : Yaml.Fields :=
  (t.map transportFields).getD []

/-- The fields of REALITY settings. -/
def realityFields (r : Reality) : Yaml.Fields :=
  let shortId : Yaml.Fields := if r.shortId.isEmpty then [] else [("short-id", .text r.shortId)]
  [("reality-opts", .map (("public-key", .text r.publicKey) :: shortId))]

/-- The entry of a protocol that both dialects know. -/
def sharedListing? (dialect : Dialect) (s : Server) : Option Yaml.Fields :=
  match s.params with
  | .shadowsocks p =>
    if UserKey.isAead2022 p.method ∧ dialect = .plain then none
    else (pluginFields? p).map fun plugin =>
      baseFields s "ss" ++ [("cipher", .text p.method), ("password", .text p.password),
        ("udp", .bool true)] ++ plugin
  | .vmess p =>
    if p.transport.any (·.network = .quic) then none
    else
      some (baseFields s "vmess" ++ [("uuid", .text p.uuid), ("alterId", .number p.alterId.toNat),
        ("cipher", .text p.security), ("udp", .bool true)]
        ++ optionalTlsFields dialect s.params.tls? ++ optionalTransportFields p.transport)
  | .trojan p =>
    if p.transport.all fun t => t.network = .ws ∨ t.network = .grpc then
      some (baseFields s "trojan" ++ [("password", .text p.password), ("udp", .bool true)]
        ++ tlsFields dialect "sni" p.tls ++ optionalTransportFields p.transport)
    else none
  | _ => none

/-- The entry of a protocol that only the extended dialect knows. -/
def extendedListing? (s : Server) : Option Yaml.Fields :=
  match s.params with
  | .vless p =>
    let tls := s.params.tls?
    let flow : Yaml.Fields := if p.flow.isEmpty then [] else [("flow", .text p.flow)]
    some (baseFields s "vless" ++ [("uuid", .text p.uuid), ("udp", .bool true)] ++ flow
      ++ [("packet-encoding", .text p.packetEncoding)] ++ optionalTlsFields .extended tls
      ++ ((tls.bind Tls.reality?).map realityFields).getD [] ++ optionalTransportFields p.transport)
  | .hysteria p =>
    some (baseFields s "hysteria" ++ [("auth-str", .text p.password), ("up", bandwidth p.upMbps),
      ("down", bandwidth p.downMbps)] ++ field? "obfs" (p.obfs.map .text)
      ++ tlsFields .extended "sni" p.tls)
  | .hysteria2 p =>
    let obfs : Yaml.Fields := match p.obfsPassword with
      | some key => [("obfs", .text "salamander"), ("obfs-password", .text key)]
      | none => []
    some (baseFields s "hysteria2" ++ [("password", .text p.password)] ++ obfs
      ++ field? "up" (p.upMbps.map bandwidth) ++ field? "down" (p.downMbps.map bandwidth)
      ++ tlsFields .extended "sni" p.tls)
  | .tuic p =>
    some (baseFields s "tuic" ++ [("uuid", .text p.uuid), ("password", .text p.password),
      ("congestion-controller", .text p.congestionControl),
      ("udp-relay-mode", .text p.udpRelayMode)] ++ tlsFields .extended "sni" p.tls)
  | .anytls p =>
    some (baseFields s "anytls" ++ [("password", .text p.password), ("udp", .bool true)]
      ++ tlsFields .extended "sni" p.tls)
  | _ => none

/-- The entry of a server, where the dialect can express it. -/
def listing? (dialect : Dialect) (s : Server) : Option Yaml.Fields :=
  (sharedListing? dialect s).or (if dialect = .extended then extendedListing? s else none)

/-- A proxy of a profile. -/
structure Proxy where
  name : String
  fields : Yaml.Fields

/-- A group of proxies, other groups and built-in targets. -/
structure Group where
  name : String
  kind : String
  members : List String

/-- The group that is chosen from. -/
def selectGroup : String := "Proxy"

/-- The group that takes the fastest. -/
def autoGroup : String := "Auto"

/-- The proxies of a profile: those servers that the dialect can express, in order. -/
def profile (dialect : Dialect) (servers : List Server) : List Proxy :=
  servers.filterMap fun s => (listing? dialect s).map fun fields => ⟨s.name, fields⟩

/-- The groups of a profile. -/
def groups (proxies : List Proxy) : List Group :=
  let names := proxies.map (·.name)
  [⟨selectGroup, "select", autoGroup :: names ++ ["DIRECT"]⟩, ⟨autoGroup, "url-test", names⟩]

/-- A group as a map; one that tests its members says how. -/
def Group.toYaml (g : Group) : Yaml :=
  let test : Yaml.Fields :=
    if g.kind = "url-test" then
      [("url", .text "http://www.gstatic.com/generate_204"), ("interval", .number 300),
       ("tolerance", .number 50)]
    else []
  .map ([("name", .text g.name), ("type", .text g.kind), ("proxies", Yaml.texts g.members)] ++ test)

/-- The rules of a profile. -/
def rules : List String :=
  ["GEOSITE,category-ads-all,REJECT", "GEOIP,LAN,DIRECT,no-resolve", "GEOIP,CN,DIRECT",
   s!"MATCH,{selectGroup}"]

/-- The text of a profile. -/
def render (dialect : Dialect) (servers : List Server) : String :=
  let proxies := profile dialect servers
  Yaml.document [("mixed-port", .number 7890), ("allow-lan", .bool false), ("mode", .text "rule"),
    ("log-level", .text "info"), ("proxies", .list (proxies.map fun p => .map p.fields)),
    ("proxy-groups", .list ((groups proxies).map Group.toYaml)), ("rules", Yaml.texts rules)]

end ProxyFleet.Subscription.Clash

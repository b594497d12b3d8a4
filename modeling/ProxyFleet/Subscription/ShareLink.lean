import ProxyFleet.Json.Printer
import ProxyFleet.Net.Host
import ProxyFleet.Subscription.Server
import ProxyFleet.Text.Percent

/-!
# Share links

One link for each server: a scheme, the credential, the address, settings as a query, and the name
as the fragment. A vmess link is a JSON object in base64. The bundle is all links, one on each line,
in base64.

* `ShareLink.queryOf` : the settings of a link before they are encoded;
* `ShareLink.link` : the link of a server;
* `ShareLink.render` : the bundle.
-/

namespace ProxyFleet.Subscription.ShareLink

set_option autoImplicit false

open Text (percentEncode)

/-- Settings by name, in order. -/
abbrev Query := List (String × String)

/-- A setting, where it is present. -/
def setting? (key : String) (value : Option String) : Query := (value.map (key, ·)).toList

/-- The text of a query, with its question mark, or nothing. -/
def queryText (q : Query) : String :=
  if q.isEmpty then ""
  else "?" ++ "&".intercalate (q.map fun (k, v) => k ++ "=" ++ percentEncode v)

/-- The settings of application protocols. -/
def alpnQuery (tls : Tls) : Query :=
  if tls.alpn.isEmpty then [] else [("alpn", ",".intercalate tls.alpn)]

/-- A mark on links whose server's certificate goes unchecked. -/
def insecureQuery (key : String) (tls : Tls) : Query := if tls.insecure then [(key, "1")] else []

/-- The settings of TLS. -/
def tlsQuery : Option Tls → Query
  | none => [("security", "none")]
  | some tls =>
    let reality : Query := match tls.reality? with
      | some r =>
        ("pbk", r.publicKey) :: if r.shortId.isEmpty then [] else [("sid", r.shortId)]
      | none => []
    ("security", if tls.reality?.isSome then "reality" else "tls") :: setting? "sni" tls.serverName
    ++ setting? "fp" ((tls.utls.filter (·.enabled)).map (·.fingerprint)) ++ alpnQuery tls
    ++ reality ++ insecureQuery "allowInsecure" tls

/-- The settings of a transport. -/
def transportQuery (t : Transport) : Query :=
  match t.network with
  | .ws | .h2 => setting? "path" t.path ++ setting? "host" t.firstHost?
  | .grpc => setting? "serviceName" t.serviceName
  | .tcp => setting? "headerType" t.headerType ++ setting? "path" t.path ++ setting? "host" t.firstHost?
  | .quic => setting? "quicSecurity" t.security

/-- The network of a transport or of none. -/
def networkOf (t : Option Transport) : Network := (t.map (·.network)).getD .tcp

/-- The settings of a stream: network, TLS and transport. -/
def streamQuery (tls : Option Tls) (transport : Option Transport) : Query :=
  let network := networkOf transport
  ("type", if network = .h2 then "http" else network.name) :: tlsQuery tls
  ++ (transport.map transportQuery).getD []

/-- The object inside a vmess link, its fields sorted by name. -/
def vmessBody (s : Server) (p : Vmess) : Json :=
  let tls := s.params.tls?
  let network := networkOf p.transport
  let path := if network = .grpc then p.transport.bind (·.serviceName) else p.transport.bind (·.path)
  .obj [("add", .str s.host), ("aid", .str (toString p.alterId)),
    ("alpn", .str ((tls.map fun t => ",".intercalate t.alpn).getD "")),
    ("fp", .str (((tls.bind (·.utls)).map (·.fingerprint)).getD "")),
    ("host", .str ((p.transport.bind (·.firstHost?)).getD "")), ("id", .str p.uuid),
    ("net", .str network.name), ("path", .str (path.getD "")), ("port", .str (toString s.port)),
    ("ps", .str s.name), ("scy", .str p.security),
    ("sni", .str ((tls.bind (·.serverName)).getD "")), ("tls", .str (if tls.isSome then "tls" else "")),
    ("type", .str ((p.transport.bind (·.headerType)).getD "none")), ("v", .str "2")]

/-- The settings that the query of a link holds; a vmess link has none. -/
def queryOf (params : Params) : Query :=
  match params with
  | .shadowsocks p =>
    match p.plugin with
    | some plugin =>
      [("plugin", match p.pluginOpts with
        | some opts => s!"{plugin};{opts}"
        | none => plugin)]
    | none => []
  | .vmess _ => []
  | .vless p =>
    ("encryption", p.encryption) :: streamQuery params.tls? p.transport
    ++ if p.flow.isEmpty then [] else [("flow", p.flow)]
  | .trojan p => streamQuery (some p.tls) p.transport
  | .hysteria p =>
    [("protocol", "udp"), ("auth", p.password)] ++ setting? "peer" p.tls.serverName
    ++ [("upmbps", toString p.upMbps), ("downmbps", toString p.downMbps)]
    ++ setting? "obfsParam" p.obfs ++ alpnQuery p.tls ++ insecureQuery "insecure" p.tls
  | .hysteria2 p =>
    let obfs : Query := match p.obfsPassword with
      | some key => [("obfs", "salamander"), ("obfs-password", key)]
      | none => []
    setting? "sni" p.tls.serverName ++ obfs ++ insecureQuery "insecure" p.tls
  | .tuic p =>
    setting? "sni" p.tls.serverName
    ++ [("congestion_control", p.congestionControl), ("udp_relay_mode", p.udpRelayMode)]
    ++ alpnQuery p.tls ++ insecureQuery "allow_insecure" p.tls
  | .anytls p => setting? "sni" p.tls.serverName ++ insecureQuery "insecure" p.tls

/-- The scheme of a protocol's links. -/
def scheme : Protocol → String
  | .shadowsocks => "ss"
  | p => p.name

/-- What stands before the address of a link, with its at sign. -/
def userInfo : Params → String
  | .shadowsocks p =>
    let credential :=
      if UserKey.isAead2022 p.method then percentEncode p.method ++ ":" ++ percentEncode p.password
      else Base64.urlSafe.text (Text.utf8 s!"{p.method}:{p.password}")
    credential ++ "@"
  | .vless p => p.uuid ++ "@"
  | .trojan p => percentEncode p.password ++ "@"
  | .hysteria2 p => percentEncode p.password ++ "@"
  | .tuic p => p.uuid ++ ":" ++ percentEncode p.password ++ "@"
  | .anytls p => percentEncode p.password ++ "@"
  | .hysteria _ => ""
  | .vmess _ => ""

/-- The link of a server. -/
def link (s : Server) : String :=
  match s.params with
  | .vmess p => "vmess://" ++ Base64.standard.text (Text.utf8 (vmessBody s p).compact)
  | params =>
    let query := queryOf params
    let slash := if params.protocol = .shadowsocks ∧ !query.isEmpty then "/" else ""
    scheme params.protocol ++ "://" ++ userInfo params ++ Net.authority s.host s.port.toNat ++ slash
      ++ queryText query ++ "#" ++ percentEncode s.name

/-- The links of servers. -/
def links (servers : List Server) : List String := servers.map link

/-- The bundle of links. -/
def render (servers : List Server) : String :=
  Base64.standard.text (Text.utf8 ("\n".intercalate (links servers)))

end ProxyFleet.Subscription.ShareLink

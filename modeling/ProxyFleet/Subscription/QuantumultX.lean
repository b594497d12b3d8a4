import ProxyFleet.Net.Host
import ProxyFleet.Subscription.Server

/-!
# Quantumult X server lists

One line for each server that the client can express.
-/

namespace ProxyFleet.Subscription.QuantumultX

set_option autoImplicit false

/-- The field that tells whether certificates are checked. -/
def verification (tls : Tls) : String :=
  let checked := !tls.insecure
  s!"tls-verification={checked}"

/-- The fields of TLS and transport together; a transport other than a websocket or the http
header cannot be expressed. -/
def streamFields? (tls : Option Tls) (transport : Option Transport) : Option (List String) :=
  let serverName := tls.bind (·.serverName)
  let check := (tls.map verification).toList
  let plain :=
    (if tls.isSome then
      "obfs=over-tls" :: (serverName.map fun sni => s!"obfs-host={sni}").toList else []) ++ check
  match transport with
  | none => some plain
  | some t =>
    match t.network with
    | .tcp => some plain
    | .ws =>
      let path := t.path.getD "/"
      some ([if tls.isSome then "obfs=wss" else "obfs=ws"]
        ++ ((t.firstHost?.or serverName).map fun host => s!"obfs-host={host}").toList
        ++ [s!"obfs-uri={path}"] ++ check)
    | _ => none

/-- The obfuscation fields of shadowsocks; a plugin that does not say how it obfuscates cannot be
expressed. -/
def obfsFields? (p : Shadowsocks) : Option (List String) :=
  match p.option? "obfs" with
  | some obfs =>
    some (s!"obfs={obfs}" :: ((p.option? "obfs-host").map fun host => s!"obfs-host={host}").toList)
  | none => if p.plugin.isSome then none else some []

/-- The kind of a server and its fields, where the client can express it. -/
def serverFields? (s : Server) : Option (String × List String) :=
  match s.params with
  | .shadowsocks p =>
    (obfsFields? p).map fun obfs =>
      ("shadowsocks", [s!"method={p.method}", s!"password={p.password}"] ++ obfs
        ++ ["udp-relay=true"])
  | .vmess p =>
    (streamFields? s.params.tls? p.transport).map fun stream =>
      ("vmess", ["method=chacha20-poly1305", s!"password={p.uuid}"] ++ stream
        ++ if p.alterId = 0 then ["aead=true"] else [])
  | .vless p =>
    let tls := s.params.tls?
    if !p.flow.isEmpty || (tls.bind Tls.reality?).isSome then none
    else (streamFields? tls p.transport).map fun stream =>
      ("vless", ["method=none", s!"password={p.uuid}"] ++ stream)
  | .trojan p =>
    let stream? := match p.transport with
      | none =>
        some ("over-tls=true" :: (p.tls.serverName.map fun sni => s!"tls-host={sni}").toList
          ++ [verification p.tls])
      | some t => streamFields? (some p.tls) (some t)
    stream?.map fun stream => ("trojan", [s!"password={p.password}"] ++ stream)
  | _ => none

/-- The line of a server, where the client can express it. -/
def line? (s : Server) : Option String :=
  (serverFields? s).map fun (kind, fields) =>
    let address := Net.authority s.host s.port.toNat
    ", ".intercalate (s!"{kind}={address}" :: fields ++ ["fast-open=false", s!"tag={s.name}"])

/-- The lines of a list. -/
def lines (servers : List Server) : List String := servers.filterMap line?

/-- The text of a list. -/
def render (servers : List Server) : String := "\n".intercalate (lines servers) ++ "\n"

end ProxyFleet.Subscription.QuantumultX

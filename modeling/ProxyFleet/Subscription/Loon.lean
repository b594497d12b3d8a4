import ProxyFleet.Subscription.Server

/-!
# Loon server lists

One line for each server that the client can express.
-/

namespace ProxyFleet.Subscription.Loon

set_option autoImplicit false

/-- The fields of TLS settings. -/
def tlsFields (tls : Tls) : List String :=
  (tls.serverName.map fun sni => s!"tls-name={sni}").toList
  ++ [s!"skip-cert-verify={tls.insecure}"]

/-- The fields of a transport with a path. -/
def pathFields (name : String) (t : Transport) : List String :=
  let path := t.path.getD "/"
  [s!"transport={name}", s!"path={path}"]
  ++ (t.firstHost?.map fun host => s!"host={host}").toList

/-- The fields of a transport, where the client can express it. -/
def transportFields? (t : Transport) : Option (List String) :=
  match t.network with
  | .tcp => some ["transport=tcp"]
  | .ws => some (pathFields "ws" t)
  | .h2 => some (pathFields "http" t)
  | .grpc | .quic => none

/-- The fields of a transport or of none. -/
def streamFields? : Option Transport → Option (List String)
  | none => some ["transport=tcp"]
  | some t => transportFields? t

/-- The fields of TLS in force, for the protocols that can do without. -/
def optionalTlsFields (tls : Option Tls) : List String :=
  match tls with
  | some tls => "over-tls=true" :: tlsFields tls
  | none => []

/-- The fields of REALITY settings. -/
def realityFields (r : Reality) : List String :=
  s!"public-key=\"{r.publicKey}\"" :: if r.shortId.isEmpty then [] else [s!"short-id={r.shortId}"]

/-- A text in quotes. -/
def quoted (s : String) : String := s!"\"{s}\""

/-- The kind of a server and its fields, where the client can express it. -/
def serverFields? (s : Server) : Option (String × List String) :=
  match s.params with
  | .shadowsocks p =>
    if p.plugin.isSome then none
    else some ("Shadowsocks", [p.method, quoted p.password, "udp=true"])
  | .vmess p =>
    (streamFields? p.transport).map fun stream =>
      ("vmess", [p.security, quoted p.uuid] ++ stream ++ optionalTlsFields s.params.tls?
        ++ [s!"alterId={p.alterId}"])
  | .vless p =>
    (streamFields? p.transport).map fun stream =>
      let reality := ((s.params.tls?.bind Tls.reality?).map realityFields).getD []
      ("VLESS", [quoted p.uuid] ++ stream ++ optionalTlsFields s.params.tls? ++ reality
        ++ if p.flow.isEmpty then [] else [s!"flow={p.flow}"])
  | .trojan p =>
    let stream? := match p.transport with
      | none => some []
      | some t => transportFields? t
    stream?.map fun stream => ("trojan", [quoted p.password] ++ stream ++ tlsFields p.tls)
  | .hysteria2 p =>
    some ("Hysteria2", [quoted p.password] ++ tlsFields p.tls
      ++ (p.obfsPassword.map fun key => s!"salamander-password={key}").toList
      ++ (p.downMbps.map fun down => s!"download-bandwidth={down}").toList ++ ["udp=true"])
  | _ => none

/-- The line of a server, where the client can express it. -/
def line? (s : Server) : Option String :=
  (serverFields? s).map fun (kind, fields) =>
    ",".intercalate (s!"{s.name} = {kind}" :: s.host :: toString s.port :: fields)

/-- The lines of a list. -/
def lines (servers : List Server) : List String := servers.filterMap line?

/-- The text of a list. -/
def render (servers : List Server) : String := "\n".intercalate (lines servers) ++ "\n"

end ProxyFleet.Subscription.Loon

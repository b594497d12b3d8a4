import ProxyFleet.Subscription.Server

/-!
# Surge and Surfboard profiles

A profile of sections with one line for each proxy. Surfboard knows fewer protocols.

* `Surge.line?` : the line of one server, if the client can express it;
* `Surge.profile` : the proxies of a profile; `Surge.groups` : its groups;
* `Surge.render` : the text.
-/

namespace ProxyFleet.Subscription.Surge

set_option autoImplicit false

/-- The clients that read these profiles. -/
inductive Client where
  | surge
  | surfboard
  deriving DecidableEq

/-- The fields of TLS settings. -/
def tlsFields (tls : Tls) : List String :=
  (tls.serverName.map fun sni => s!"sni={sni}").toList
  ++ if tls.insecure then ["skip-cert-verify=true"] else []

/-- The fields of a transport, where it is a websocket or none. -/
def transportFields? : Option Transport → Option (List String)
  | none => some []
  | some t =>
    if t.network = .ws then
      let path := t.path.getD "/"
      some (["ws=true", s!"ws-path={path}"]
        ++ (t.firstHost?.map fun host => s!"ws-headers=Host:{host}").toList)
    else none

/-- The obfuscation fields of shadowsocks; a plugin that does not say how it obfuscates cannot be
expressed. -/
def obfsFields? (p : Shadowsocks) : Option (List String) :=
  match p.option? "obfs" with
  | some obfs =>
    some (s!"obfs={obfs}" :: ((p.option? "obfs-host").map fun host => s!"obfs-host={host}").toList)
  | none => if p.plugin.isSome then none else some []

/-- The kind of a proxy and its fields, where the client can express it. -/
def proxyFields? (client : Client) (s : Server) : Option (String × List String) :=
  match s.params with
  | .shadowsocks p =>
    if client = .surfboard ∧ UserKey.isAead2022 p.method then none
    else (obfsFields? p).map fun obfs =>
      ("ss", [s!"encrypt-method={p.method}", s!"password={p.password}"] ++ obfs
        ++ ["udp-relay=true"])
  | .vmess p =>
    (transportFields? p.transport).map fun transport =>
      let tls := match s.params.tls? with
        | some tls => "tls=true" :: tlsFields tls
        | none => []
      let aead := if p.alterId = 0 then ["vmess-aead=true"] else []
      ("vmess", [s!"username={p.uuid}"] ++ tls ++ transport ++ aead)
  | .trojan p =>
    (transportFields? p.transport).map fun transport =>
      ("trojan", [s!"password={p.password}"] ++ tlsFields p.tls ++ transport)
  | .hysteria2 p =>
    if client = .surge ∧ p.obfsPassword = none then
      some ("hysteria2", [s!"password={p.password}"] ++ tlsFields p.tls
        ++ (p.downMbps.map fun down => s!"download-bandwidth={down}").toList)
    else none
  | .tuic p =>
    if client = .surge then
      let alpn := ",".intercalate p.tls.alpn
      some ("tuic-v5", [s!"uuid={p.uuid}", s!"password={p.password}"] ++ tlsFields p.tls
        ++ if p.tls.alpn.isEmpty then [] else [s!"alpn={alpn}"])
    else none
  | _ => none

/-- The line of a server, where the client can express it. -/
def line? (client : Client) (s : Server) : Option String :=
  (proxyFields? client s).map fun (kind, fields) =>
    ", ".intercalate (s!"{s.name} = {kind}" :: s.host :: toString s.port :: fields)

/-- A proxy of a profile. -/
structure Proxy where
  name : String
  line : String

/-- A group: how it chooses, among whom, and further settings. -/
structure Group where
  name : String
  kind : String
  members : List String
  settings : List String

/-- The proxies of a profile: those servers that the client can express, in order. -/
def profile (client : Client) (servers : List Server) : List Proxy :=
  servers.filterMap fun s => (line? client s).map fun line => ⟨s.name, line⟩

/-- The groups of a profile; the one that takes the fastest is left out where there is no proxy. -/
def groups (proxies : List Proxy) : List Group :=
  let names := proxies.map (·.name)
  ⟨"Proxy", "select", "Auto" :: names ++ ["DIRECT"], []⟩ ::
    if names.isEmpty then []
    else [⟨"Auto", "url-test", names,
      ["url=http://www.gstatic.com/generate_204", "interval=300", "tolerance=50"]⟩]

/-- The line of a group. -/
def Group.line (g : Group) : String :=
  ", ".intercalate (s!"{g.name} = {g.kind}" :: g.members ++ g.settings)

/-- The lines of the section on proxies, under its heading. -/
def proxyLines (proxies : List Proxy) : List String := "DIRECT = direct" :: proxies.map (·.line)

/-- The lines of a profile. -/
def lines (proxies : List Proxy) : List String :=
  ["[General]", "loglevel = notify", "dns-server = system, 223.5.5.5, 1.1.1.1",
   "skip-proxy = 127.0.0.1, 192.168.0.0/16, 10.0.0.0/8, localhost, *.local", "", "[Proxy]"]
  ++ proxyLines proxies ++ ["", "[Proxy Group]"] ++ (groups proxies).map Group.line
  ++ ["", "[Rule]", "GEOIP,CN,DIRECT", "FINAL,Proxy,dns-failed"]

/-- The text of a profile. -/
def render (client : Client) (servers : List Server) : String :=
  String.join ((lines (profile client servers)).map (· ++ "\n"))

end ProxyFleet.Subscription.Surge

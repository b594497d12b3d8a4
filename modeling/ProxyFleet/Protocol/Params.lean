import ProxyFleet.Protocol.Name
import ProxyFleet.Text.Blank

/-!
# Typed parameters

One structure for each protocol's parameters, and `Params` over all of them.

* `Params.protocol`, `Params.tls?`, `Params.transport?` : what the protocols share;
* `Params.withCredential` : the parameters with a user's secret in place of the node's own.
-/

namespace ProxyFleet

set_option autoImplicit false

/-- The client fingerprint a handshake imitates. -/
structure Utls where
  enabled : Bool
  fingerprint : String
  deriving DecidableEq

/-- The key and the id of a REALITY handshake. -/
structure Reality where
  enabled : Bool
  publicKey : String
  shortId : String
  deriving DecidableEq

/-- TLS settings. -/
structure Tls where
  enabled : Bool := true
  serverName : Option String := none
  insecure : Bool := false
  alpn : List String := []
  utls : Option Utls := none
  reality : Option Reality := none
  deriving DecidableEq

/-- The REALITY settings, where they are in force. -/
def Tls.reality? (t : Tls) : Option Reality := t.reality.filter (·.enabled)

/-- What carries a proxied stream. -/
inductive Network where
  | tcp
  | ws
  | grpc
  | h2
  | quic
  deriving DecidableEq

namespace Network

/-- The name of a network. -/
def name : Network → String
  | tcp => "tcp"
  | ws => "ws"
  | grpc => "grpc"
  | h2 => "h2"
  | quic => "quic"

/-- Every network. -/
def all : List Network := [tcp, ws, grpc, h2, quic]

/-- The network of a name; `http` is another name of `h2`. -/
def ofName? (s : String) : Option Network :=
  if s = "http" then some h2 else all.find? (·.name == s)

end Network

/-- A transport other than a plain stream. -/
structure Transport where
  network : Network
  path : Option String := none
  host : List String := []
  serviceName : Option String := none
  headerType : Option String := none
  security : Option String := none
  deriving DecidableEq

/-- The host that a transport asks for. -/
def Transport.firstHost? (t : Transport) : Option String := t.host.head?

/-- The parameters of vmess. -/
structure Vmess where
  uuid : String
  alterId : UInt16
  security : String
  tls : Option Tls
  transport : Option Transport
  deriving DecidableEq

/-- The parameters of vless. -/
structure Vless where
  uuid : String
  flow : String
  encryption : String
  packetEncoding : String
  tls : Option Tls
  transport : Option Transport
  deriving DecidableEq

/-- The parameters of trojan. -/
structure Trojan where
  password : String
  tls : Tls
  transport : Option Transport
  deriving DecidableEq

/-- The parameters of shadowsocks. -/
structure Shadowsocks where
  method : String
  password : String
  plugin : Option String
  pluginOpts : Option String
  deriving DecidableEq

/-- The parameters of hysteria. -/
structure Hysteria where
  password : String
  upMbps : UInt32
  downMbps : UInt32
  obfs : Option String
  tls : Tls
  deriving DecidableEq

/-- The parameters of hysteria2. -/
structure Hysteria2 where
  password : String
  obfsPassword : Option String
  upMbps : Option UInt32
  downMbps : Option UInt32
  tls : Tls
  deriving DecidableEq

/-- The parameters of tuic. -/
structure Tuic where
  uuid : String
  password : String
  congestionControl : String
  udpRelayMode : String
  tls : Tls
  deriving DecidableEq

/-- The parameters of anytls. -/
structure AnyTls where
  password : String
  tls : Tls
  deriving DecidableEq

/-- The parameters of a node. -/
inductive Params where
  | anytls (p : AnyTls)
  | hysteria (p : Hysteria)
  | hysteria2 (p : Hysteria2)
  | shadowsocks (p : Shadowsocks)
  | trojan (p : Trojan)
  | tuic (p : Tuic)
  | vless (p : Vless)
  | vmess (p : Vmess)
  deriving DecidableEq

namespace Params

/-- The protocol of the parameters. -/
def protocol : Params → Protocol
  | anytls _ => .anytls
  | hysteria _ => .hysteria
  | hysteria2 _ => .hysteria2
  | shadowsocks _ => .shadowsocks
  | trojan _ => .trojan
  | tuic _ => .tuic
  | vless _ => .vless
  | vmess _ => .vmess

/-- The TLS settings that are stored, in force or not. -/
def storedTls? : Params → Option Tls
  | anytls p => some p.tls
  | hysteria p => some p.tls
  | hysteria2 p => some p.tls
  | shadowsocks _ => none
  | trojan p => some p.tls
  | tuic p => some p.tls
  | vless p => p.tls
  | vmess p => p.tls

/-- The TLS settings in force. -/
def tls? (p : Params) : Option Tls := p.storedTls?.filter (·.enabled)

/-- The transport, where it is not a plain stream. -/
def transport? : Params → Option Transport
  | trojan p => p.transport
  | vless p => p.transport
  | vmess p => p.transport
  | _ => none

/-- The parameters with the credential replaced: a uuid, a password, or both. -/
def withCredential (uuid password : String) : Params → Params
  | anytls p => anytls { p with password }
  | hysteria p => hysteria { p with password }
  | hysteria2 p => hysteria2 { p with password }
  | shadowsocks p => shadowsocks { p with password }
  | trojan p => trojan { p with password }
  | tuic p => tuic { p with uuid, password }
  | vless p => vless { p with uuid }
  | vmess p => vmess { p with uuid }

end Params

/-! ## Plugin options of shadowsocks -/

namespace Shadowsocks

/-- The options of a text such as `obfs=http;obfs-host=example.com`, in order; a piece without an
equals sign is passed over. -/
def readOptions (opts : String) : List (String × String) :=
  (Text.splitChars ';' opts.toList).filterMap fun piece =>
    (Text.splitOnce? '=' piece).map fun (k, v) =>
      (String.ofList (Text.trimChars k), String.ofList (Text.trimChars v))

/-- The plugin options in order. -/
def options (p : Shadowsocks) : List (String × String) := readOptions (p.pluginOpts.getD "")

/-- The first plugin option of a name. -/
def option? (p : Shadowsocks) (key : String) : Option String :=
  (p.options.find? (·.1 == key)).map (·.2)

end Shadowsocks

end ProxyFleet

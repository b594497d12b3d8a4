import ProxyFleet.Text.Letters

/-!
# Proxy protocols

The protocols a node can speak, their names, and the values that their parameters range over.
-/

namespace ProxyFleet

set_option autoImplicit false

/-- A proxy protocol. -/
inductive Protocol where
  | anytls
  | hysteria
  | hysteria2
  | shadowsocks
  | trojan
  | tuic
  | vless
  | vmess
  deriving DecidableEq, Inhabited

namespace Protocol

/-- Every protocol, in the order of their names. -/
def all : List Protocol := [anytls, hysteria, hysteria2, shadowsocks, trojan, tuic, vless, vmess]

/-- The name of a protocol. -/
def name : Protocol → String
  | anytls => "anytls"
  | hysteria => "hysteria"
  | hysteria2 => "hysteria2"
  | shadowsocks => "shadowsocks"
  | trojan => "trojan"
  | tuic => "tuic"
  | vless => "vless"
  | vmess => "vmess"

/-- The protocol of exactly that name. -/
def ofName? (s : String) : Option Protocol := all.find? (·.name == s)

/-- The protocol of a name in any letter case. -/
def ofAnyCase? (s : String) : Option Protocol := ofName? (Text.foldName s)

/-- The parameters that have to be given. -/
def requiredParams : Protocol → List String
  | vmess | vless | tuic => ["uuid"]
  | shadowsocks => ["method", "password"]
  | trojan | hysteria | hysteria2 | anytls => ["password"]

/-- The parameters that may be given. -/
def optionalParams : Protocol → List String
  | vmess => ["alter_id", "security", "tls", "network", "network_settings"]
  | vless => ["flow", "encryption", "tls", "reality", "network", "network_settings"]
  | trojan => ["sni", "server_name", "allow_insecure", "alpn", "tls", "network", "network_settings"]
  | shadowsocks => ["plugin", "plugin_opts"]
  | hysteria => ["up_mbps", "down_mbps", "obfs", "sni", "allow_insecure", "alpn"]
  | hysteria2 => ["obfs_password", "up_mbps", "down_mbps", "sni", "allow_insecure", "alpn"]
  | tuic => ["password", "congestion_control", "udp_relay_mode", "sni", "allow_insecure", "alpn"]
  | anytls => ["sni", "allow_insecure", "alpn"]

end Protocol

/-! ## Values of parameters -/

/-- The ciphers of shadowsocks. -/
def shadowsocksMethods : List String :=
  ["aes-128-gcm", "aes-192-gcm", "aes-256-gcm", "chacha20-ietf-poly1305",
   "xchacha20-ietf-poly1305", "2022-blake3-aes-128-gcm", "2022-blake3-aes-256-gcm",
   "2022-blake3-chacha20-poly1305"]

/-- The plugins of shadowsocks. -/
def shadowsocksPlugins : List String := ["obfs-local", "v2ray-plugin", "kcptun", "simple-obfs"]

/-- The ciphers of vmess. -/
def vmessSecurities : List String := ["auto", "aes-128-gcm", "chacha20-poly1305", "none"]

/-- The flows of vless. -/
def vlessFlows : List String := ["", "xtls-rprx-vision", "xtls-rprx-vision-udp443"]

/-- The client fingerprints that a TLS handshake can imitate. -/
def utlsFingerprints : List String :=
  ["chrome", "firefox", "safari", "ios", "android", "edge", "360", "qq", "random", "randomized"]

/-- The congestion controls of tuic. -/
def tuicCongestionControls : List String := ["cubic", "new_reno", "bbr"]

/-- The ways in which tuic relays UDP. -/
def tuicRelayModes : List String := ["native", "quic"]

end ProxyFleet

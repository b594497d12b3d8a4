import ProxyFleet.Protocol.Error
import ProxyFleet.Protocol.Params

/-!
# Canonical parameters

The canonical form of parameters is the object in which a node is stored: every field of the typed
structure apart from those that are absent, empty or off, sorted by name.

* `Params.canonical` writes it and `Params.ofCanonical` reads it back;
* reading takes fields it does not know, and defaults for the fields that writing leaves out.
-/

namespace ProxyFleet

set_option autoImplicit false

/-- A text, unless it is empty. -/
def Json.nonEmptyText (s : String) : Option Json := if s.isEmpty then none else some (.str s)

/-- Texts, unless there are none. -/
def Json.nonEmptyTexts (ss : List String) : Option Json := if ss.isEmpty then none else some (.strings ss)

/-! ## Writing -/

/-- The fields of a client fingerprint. -/
def Utls.toJson (u : Utls) : Json :=
  .record [("enabled", some (.bool u.enabled)), ("fingerprint", some (.str u.fingerprint))]

/-- The fields of REALITY settings. -/
def Reality.toJson (r : Reality) : Json :=
  .record [("enabled", some (.bool r.enabled)), ("public_key", some (.str r.publicKey)),
    ("short_id", Json.nonEmptyText r.shortId)]

/-- The fields of TLS settings. -/
def Tls.toJson (t : Tls) : Json :=
  .record [("enabled", some (.bool t.enabled)), ("server_name", t.serverName.map .str),
    ("insecure", if t.insecure then some (.bool true) else none),
    ("alpn", Json.nonEmptyTexts t.alpn), ("utls", t.utls.map Utls.toJson),
    ("reality", t.reality.map Reality.toJson)]

/-- The fields of a transport. -/
def Transport.toJson (t : Transport) : Json :=
  .record [("type", some (.str t.network.name)), ("path", t.path.map .str),
    ("host", Json.nonEmptyTexts t.host), ("service_name", t.serviceName.map .str),
    ("header_type", t.headerType.map .str), ("security", t.security.map .str)]

/-- A number of 32 bits. -/
def Json.u32 (n : UInt32) : Json := .nat n.toNat

namespace Params

/-- The fields of the parameters, in declared order. -/
def fields : Params → List (String × Option Json)
  | anytls p => [("password", some (.str p.password)), ("tls", some p.tls.toJson)]
  | hysteria p =>
    [("password", some (.str p.password)), ("up_mbps", some (.u32 p.upMbps)),
     ("down_mbps", some (.u32 p.downMbps)), ("obfs", p.obfs.map .str), ("tls", some p.tls.toJson)]
  | hysteria2 p =>
    [("password", some (.str p.password)), ("obfs_password", p.obfsPassword.map .str),
     ("up_mbps", p.upMbps.map .u32), ("down_mbps", p.downMbps.map .u32), ("tls", some p.tls.toJson)]
  | shadowsocks p =>
    [("method", some (.str p.method)), ("password", some (.str p.password)),
     ("plugin", p.plugin.map .str), ("plugin_opts", p.pluginOpts.map .str)]
  | trojan p =>
    [("password", some (.str p.password)), ("tls", some p.tls.toJson),
     ("transport", p.transport.map Transport.toJson)]
  | tuic p =>
    [("uuid", some (.str p.uuid)), ("password", some (.str p.password)),
     ("congestion_control", some (.str p.congestionControl)),
     ("udp_relay_mode", some (.str p.udpRelayMode)), ("tls", some p.tls.toJson)]
  | vless p =>
    [("uuid", some (.str p.uuid)), ("flow", Json.nonEmptyText p.flow),
     ("encryption", some (.str p.encryption)), ("packet_encoding", some (.str p.packetEncoding)),
     ("tls", p.tls.map Tls.toJson), ("transport", p.transport.map Transport.toJson)]
  | vmess p =>
    [("uuid", some (.str p.uuid)), ("alter_id", some (.nat p.alterId.toNat)),
     ("security", some (.str p.security)), ("tls", p.tls.map Tls.toJson),
     ("transport", p.transport.map Transport.toJson)]

/-- The canonical form of the parameters. -/
def canonical (p : Params) : Json := (Json.record p.fields).sorted

end Params

/-! ## Reading -/

open Decoder Fields

/-- Reads a client fingerprint. -/
def Utls.decoder : Decoder Utls :=
  record "UtlsOptions" (Utls.mk <$> Fields.default "enabled" bool true <*> required "fingerprint" text)

/-- Reads REALITY settings. -/
def Reality.decoder : Decoder Reality :=
  record "RealityOptions" (Reality.mk <$> Fields.default "enabled" bool true
    <*> required "public_key" text <*> Fields.default "short_id" text "")

/-- Reads TLS settings. -/
def Tls.decoder : Decoder Tls :=
  record "TlsOptions" (Tls.mk <$> Fields.default "enabled" bool true <*> optional "server_name" text
    <*> Fields.default "insecure" bool false <*> Fields.default "alpn" (list text) []
    <*> optional "utls" Utls.decoder <*> optional "reality" Reality.decoder)

/-- Reads the name of a network. -/
def Network.decoder : Decoder Network := variant (Network.all.map fun n => (n.name, n))

/-- Reads a transport. -/
def Transport.decoder : Decoder Transport :=
  record "Transport" (Transport.mk <$> required "type" Network.decoder <*> optional "path" text
    <*> Fields.default "host" (list text) [] <*> optional "service_name" text
    <*> optional "header_type" text <*> optional "security" text)

namespace Params

/-- Reads the canonical form of a protocol's parameters. -/
def decoder : Protocol → Decoder Params
  | .anytls => record "AnyTlsParams" ((fun a b => anytls ⟨a, b⟩) <$> required "password" text
    <*> required "tls" Tls.decoder)
  | .hysteria => record "HysteriaParams" ((fun a b c d e => hysteria ⟨a, b, c, d, e⟩)
    <$> required "password" text <*> required "up_mbps" u32 <*> required "down_mbps" u32
    <*> optional "obfs" text <*> required "tls" Tls.decoder)
  | .hysteria2 => record "Hysteria2Params" ((fun a b c d e => hysteria2 ⟨a, b, c, d, e⟩)
    <$> required "password" text <*> optional "obfs_password" text <*> optional "up_mbps" u32
    <*> optional "down_mbps" u32 <*> required "tls" Tls.decoder)
  | .shadowsocks => record "ShadowsocksParams" ((fun a b c d => shadowsocks ⟨a, b, c, d⟩)
    <$> required "method" text <*> required "password" text <*> optional "plugin" text
    <*> optional "plugin_opts" text)
  | .trojan => record "TrojanParams" ((fun a b c => trojan ⟨a, b, c⟩)
    <$> required "password" text <*> required "tls" Tls.decoder
    <*> optional "transport" Transport.decoder)
  | .tuic => record "TuicParams" ((fun a b c d e => tuic ⟨a, b, c, d, e⟩)
    <$> required "uuid" text <*> required "password" text <*> required "congestion_control" text
    <*> required "udp_relay_mode" text <*> required "tls" Tls.decoder)
  | .vless => record "VlessParams" ((fun a b c d e f => vless ⟨a, b, c, d, e, f⟩)
    <$> required "uuid" text <*> Fields.default "flow" text "" <*> required "encryption" text
    <*> required "packet_encoding" text <*> optional "tls" Tls.decoder
    <*> optional "transport" Transport.decoder)
  | .vmess => record "VmessParams" ((fun a b c d e => vmess ⟨a, b, c, d, e⟩)
    <$> required "uuid" text <*> required "alter_id" u16 <*> required "security" text
    <*> optional "tls" Tls.decoder <*> optional "transport" Transport.decoder)

/-- The parameters of a canonical form. -/
def ofCanonical (protocol : String) (form : JsonFields) : Except ParamError Params :=
  match Protocol.ofName? protocol with
  | none => .error (.unsupported protocol)
  | some p => (decoder p (.obj form)).mapError fun e => ⟨protocol, "params", .malformed e⟩

end Params

end ProxyFleet

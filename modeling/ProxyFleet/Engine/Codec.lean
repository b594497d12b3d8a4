import ProxyFleet.Engine.Document
import ProxyFleet.Json.Printer
import ProxyFleet.Protocol.Canonical

/-!
# Engine documents as JSON

`Document.toJson` writes the fields in declared order and leaves out what is absent or empty, with
`extra` fields last; `Document.decoder` reads them back, and keeps unknown fields of inbounds and
outbounds in `extra`.
-/

namespace ProxyFleet.Engine

set_option autoImplicit false

open Decoder Json

/-! ## Writing -/

/-- The fields of logging. -/
def Log.toJson (l : Log) : Json := .obj [("level", .str l.level), ("timestamp", .bool l.timestamp)]

/-- The fields of a name server. -/
def DnsServer.toJson (s : DnsServer) : Json :=
  Json.record [("tag", some (.str s.tag)), ("address", some (.str s.address)),
    ("detour", s.detour.map .str)]

/-- The fields of a rule for names. -/
def DnsRule.toJson (r : DnsRule) : Json :=
  Json.record [("domain_suffix", nonEmptyTexts r.domainSuffix), ("geosite", nonEmptyTexts r.geosite),
    ("server", some (.str r.server))]

/-- A list of values, unless it is empty. -/
def nonEmptyList {α : Type} (write : α → Json) (items : List α) : Option Json :=
  if items.isEmpty then none else some (.arr (items.map write))

/-- The fields of name resolution. -/
def Dns.toJson (d : Dns) : Json :=
  Json.record [("servers", some (.arr (d.servers.map DnsServer.toJson))),
    ("rules", nonEmptyList DnsRule.toJson d.rules), ("final", d.finalServer.map .str)]

/-- An object with further fields at its end. -/
def withExtra (extra : JsonFields) : Json → Json
  | .obj fields => .obj (fields ++ extra)
  | v => v

/-- The fields of a listener. -/
def Inbound.toJson (i : Inbound) : Json :=
  withExtra i.extra (Json.record [("type", some (.str i.kind)), ("tag", some (.str i.tag)),
    ("listen", i.listen.map .str), ("listen_port", i.listenPort.map .int)])

/-- The fields of an outbound's transport. -/
def OutboundTransport.toJson (t : OutboundTransport) : Json :=
  Json.record [("type", some (.str t.kind)), ("path", t.path.map .str),
    ("host", nonEmptyTexts t.host),
    ("headers",
      if t.headers.isEmpty then none else some (.obj (t.headers.map fun (k, v) => (k, .str v)))),
    ("service_name", t.serviceName.map .str), ("max_early_data", t.maxEarlyData.map .u32),
    ("early_data_header_name", t.earlyDataHeader.map .str)]

/-- The fields of an outbound. -/
def Outbound.toJson (o : Outbound) : Json :=
  withExtra o.extra (Json.record [("type", some (.str o.kind)), ("tag", some (.str o.tag)),
    ("server", o.server.map .str), ("server_port", o.serverPort.map .int), ("uuid", o.uuid.map .str),
    ("password", o.password.map .str), ("method", o.method.map .str),
    ("security", o.security.map .str), ("alter_id", o.alterId.map fun n => .nat n.toNat),
    ("flow", o.flow.map .str), ("packet_encoding", o.packetEncoding.map .str),
    ("tls", o.tls.map Tls.toJson), ("transport", o.transport.map OutboundTransport.toJson),
    ("outbounds", o.members.map .strings)])

/-- The fields of a rule for connections. -/
def RouteRule.toJson (r : RouteRule) : Json :=
  Json.record [("protocol", r.protocol.map .str), ("ip_is_private", r.ipIsPrivate.map .bool),
    ("geosite", nonEmptyTexts r.geosite), ("geoip", nonEmptyTexts r.geoip),
    ("domain_suffix", nonEmptyTexts r.domainSuffix), ("outbound", some (.str r.outbound))]

/-- The fields of routing. -/
def Route.toJson (r : Route) : Json :=
  Json.record [("rules", some (.arr (r.rules.map RouteRule.toJson))),
    ("final", r.finalOutbound.map .str), ("auto_detect_interface", some (.bool r.autoDetectInterface))]

/-- The fields of a document. -/
def Document.toJson (d : Document) : Json :=
  Json.record [("log", d.log.map Log.toJson), ("dns", d.dns.map Dns.toJson),
    ("inbounds", some (.arr (d.inbounds.map Inbound.toJson))),
    ("outbounds", some (.arr (d.outbounds.map Outbound.toJson))), ("route", d.route.map Route.toJson)]

/-! ## Reading -/

/-- Reads logging. -/
def Log.decoder : Decoder Log :=
  record "LogConfig" (Log.mk <$> Fields.required "level" text
    <*> Fields.default "timestamp" bool false)

/-- Reads a name server. -/
def DnsServer.decoder : Decoder DnsServer :=
  record "DnsServer" (DnsServer.mk <$> Fields.default "tag" text ""
    <*> Fields.default "address" text "" <*> Fields.optional "detour" text)

/-- Reads a rule for names. -/
def DnsRule.decoder : Decoder DnsRule :=
  record "DnsRule" (DnsRule.mk <$> Fields.default "domain_suffix" (list text) []
    <*> Fields.default "geosite" (list text) [] <*> Fields.default "server" text "")

/-- Reads name resolution. -/
def Dns.decoder : Decoder Dns :=
  record "DnsConfig" (Dns.mk <$> Fields.default "servers" (list DnsServer.decoder) []
    <*> Fields.default "rules" (list DnsRule.decoder) [] <*> Fields.optional "final" text)

/-- Reads a listener. -/
def Inbound.decoder : Decoder Inbound := fun v => do
  let (inbound, extra) ← extended "Inbound" (Inbound.mk <$> Fields.default "type" text ""
    <*> Fields.default "tag" text "" <*> Fields.optional "listen" text
    <*> Fields.optional "listen_port" i64) v
  return inbound extra

/-- Reads an outbound's transport. -/
def OutboundTransport.decoder : Decoder OutboundTransport :=
  record "OutboundTransport" (OutboundTransport.mk <$> Fields.required "type" text
    <*> Fields.optional "path" text <*> Fields.default "host" (list text) []
    <*> Fields.default "headers" (map text) [] <*> Fields.optional "service_name" text
    <*> Fields.optional "max_early_data" u32 <*> Fields.optional "early_data_header_name" text)

/-- Reads an outbound. -/
def Outbound.decoder : Decoder Outbound := fun v => do
  let (outbound, extra) ← extended "Outbound" (Outbound.mk <$> Fields.default "type" text ""
    <*> Fields.default "tag" text "" <*> Fields.optional "server" text
    <*> Fields.optional "server_port" i64 <*> Fields.optional "uuid" text
    <*> Fields.optional "password" text <*> Fields.optional "method" text
    <*> Fields.optional "security" text <*> Fields.optional "alter_id" u16
    <*> Fields.optional "flow" text <*> Fields.optional "packet_encoding" text
    <*> Fields.optional "tls" Tls.decoder <*> Fields.optional "transport" OutboundTransport.decoder
    <*> Fields.optional "outbounds" (list text)) v
  return outbound extra

/-- Reads a rule for connections. -/
def RouteRule.decoder : Decoder RouteRule :=
  record "RouteRule" (RouteRule.mk <$> Fields.optional "protocol" text
    <*> Fields.optional "ip_is_private" bool <*> Fields.default "geosite" (list text) []
    <*> Fields.default "geoip" (list text) [] <*> Fields.default "domain_suffix" (list text) []
    <*> Fields.default "outbound" text "")

/-- Reads routing. -/
def Route.decoder : Decoder Route :=
  record "RouteConfig" (Route.mk <$> Fields.default "rules" (list RouteRule.decoder) []
    <*> Fields.optional "final" text <*> Fields.default "auto_detect_interface" bool false)

/-- Reads a document. -/
def Document.decoder : Decoder Document :=
  record "EngineConfig" (Document.mk <$> Fields.optional "log" Log.decoder
    <*> Fields.optional "dns" Dns.decoder <*> Fields.default "inbounds" (list Inbound.decoder) []
    <*> Fields.default "outbounds" (list Outbound.decoder) []
    <*> Fields.optional "route" Route.decoder)

end ProxyFleet.Engine

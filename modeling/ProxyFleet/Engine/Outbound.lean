import ProxyFleet.Engine.Document
import ProxyFleet.Protocol.Canonical

/-!
# Parameters as outbounds

`Params.toOutbound` is the outbound that connects to a node. A transport of the network `tcp`
stands for the http header, so it becomes a transport of the kind `http`.
-/

namespace ProxyFleet

set_option autoImplicit false

namespace Engine

/-- The transport of an outbound. -/
def OutboundTransport.ofTransport (t : Transport) : OutboundTransport :=
  match t.network with
  | .ws =>
    { kind := "ws", path := t.path, headers := (t.firstHost?.map fun h => ("Host", h)).toList
      maxEarlyData := some 2048, earlyDataHeader := some "Sec-WebSocket-Protocol" }
  | .grpc => { kind := "grpc", serviceName := t.serviceName }
  | .h2 | .tcp => { kind := "http", path := t.path, host := t.host }
  | .quic => { kind := "quic" }

end Engine

open Engine in
/-- The outbound that connects to a server with these parameters. -/
def Params.toOutbound (p : Params) (tag server : String) (port : UInt16) : Outbound :=
  let shared : Outbound :=
    { kind := p.protocol.name, tag, server := some server, serverPort := some port.toNat
      tls := p.tls?, transport := p.transport?.map OutboundTransport.ofTransport }
  match p with
  | .anytls p => { shared with password := some p.password }
  | .hysteria p =>
    { shared with
      extra := [("auth_str", .str p.password), ("down_mbps", .u32 p.downMbps)]
        ++ (p.obfs.map fun obfs => ("obfs", .str obfs)).toList ++ [("up_mbps", .u32 p.upMbps)] }
  | .hysteria2 p =>
    { shared with
      password := some p.password
      extra := (p.downMbps.map fun down => ("down_mbps", Json.u32 down)).toList
        ++ (p.obfsPassword.map fun key =>
          ("obfs", Json.obj [("password", .str key), ("type", .str "salamander")])).toList
        ++ (p.upMbps.map fun up => ("up_mbps", Json.u32 up)).toList }
  | .shadowsocks p =>
    { shared with
      method := some p.method, password := some p.password
      extra := (p.plugin.map fun plugin => ("plugin", Json.str plugin)).toList
        ++ (p.pluginOpts.map fun opts => ("plugin_opts", Json.str opts)).toList }
  | .trojan p => { shared with password := some p.password }
  | .tuic p =>
    { shared with
      uuid := some p.uuid, password := some p.password
      extra := [("congestion_control", .str p.congestionControl),
        ("udp_relay_mode", .str p.udpRelayMode)] }
  | .vless p =>
    { shared with
      uuid := some p.uuid, flow := if p.flow.isEmpty then none else some p.flow
      packetEncoding := some p.packetEncoding }
  | .vmess p =>
    { shared with uuid := some p.uuid, security := some p.security, alterId := some p.alterId }

end ProxyFleet

import ProxyFleet.Protocol.Canonical
import ProxyFleet.Protocol.Raw
import ProxyFleet.Protocol.UserKey
import ProxyFleet.Text.Uuid

/-!
# Accepting parameters

`Protocol.accept` checks the raw parameters of a protocol and gives them in typed form, with the
defaults filled in. `Params.parse` looks the protocol up by name, in any letter case.
-/

namespace ProxyFleet

set_option autoImplicit false

open Raw

namespace Protocol

/-- A uuid that has to be given, in canonical form. -/
def requiredUuid (p : Protocol) (raw : JsonFields) : Except ParamError String := do
  let uuid ← requiredText p raw "uuid"
  if Text.isUuid uuid then return uuid
  else throw ⟨p.name, "uuid", .mismatch "UUID (xxxxxxxx-xxxx-xxxx-xxxx-xxxxxxxxxxxx)" s!"'{uuid}'"⟩

/-- Refuses a server key that is not base64 of the method's key length. -/
def checkServerKey (p : Protocol) (method key : String) (size : Nat) : Except ParamError Unit :=
  match Base64.standard.decode? key.toList with
  | none => .error ⟨p.name, "password", .keyNotBase64 method size⟩
  | some bytes =>
    if bytes.length = size then .ok ()
    else .error ⟨p.name, "password", .keyLength method size bytes.length⟩

/-- Accepts the parameters of vmess. -/
def acceptVmess (raw : JsonFields) : Except ParamError Vmess := do
  let p := Protocol.vmess
  let uuid ← requiredUuid p raw
  let alterId := (← nat? p raw "alter_id").getD 0
  if 65535 < alterId then throw ⟨p.name, "alter_id", .aboveSixteenBits alterId⟩
  let security := (← text? p raw "security").getD "auto"
  oneOf p "security" security vmessSecurities
  let tls ← tls? p {} raw
  return ⟨uuid, UInt16.ofNat alterId, security, tls, ← transport? p raw⟩

/-- Accepts the parameters of vless; packets are always encoded as `xudp`. -/
def acceptVless (raw : JsonFields) : Except ParamError Vless := do
  let p := Protocol.vless
  let uuid ← requiredUuid p raw
  let flow := (← text? p raw "flow").getD ""
  oneOf p "flow" flow vlessFlows
  let encryption := (← text? p raw "encryption").getD "none"
  if encryption ≠ "none" then
    throw ⟨p.name, "encryption", .mismatch "'none'" s!"'{encryption}'"⟩
  let tls ← tls? p { utls := true, reality := true } raw
  return ⟨uuid, flow, "none", "xudp", tls, ← transport? p raw⟩

/-- Accepts the parameters of trojan. -/
def acceptTrojan (raw : JsonFields) : Except ParamError Trojan := do
  let p := Protocol.trojan
  let password ← requiredText p raw "password"
  let tls ← forcedTls p raw
  return ⟨password, tls, ← transport? p raw⟩

/-- Accepts the parameters of shadowsocks. -/
def acceptShadowsocks (raw : JsonFields) : Except ParamError Shadowsocks := do
  let p := Protocol.shadowsocks
  let method ← requiredText p raw "method"
  oneOf p "method" method shadowsocksMethods
  let password ← requiredText p raw "password"
  if let some size := UserKey.size? method then checkServerKey p method password size
  let plugin ← nonEmptyText? p raw "plugin"
  if let some plugin := plugin then oneOf p "plugin" plugin shadowsocksPlugins
  return ⟨method, password, plugin, ← nonEmptyText? p raw "plugin_opts"⟩

/-- Accepts the parameters of hysteria. -/
def acceptHysteria (raw : JsonFields) : Except ParamError Hysteria := do
  let p := Protocol.hysteria
  let password ← requiredText p raw "password"
  let tls ← forcedTls p raw
  let up := (← bandwidth? p raw "up_mbps").getD 100
  let down := (← bandwidth? p raw "down_mbps").getD 100
  return ⟨password, up, down, ← nonEmptyText? p raw "obfs", tls⟩

/-- Accepts the parameters of hysteria2. -/
def acceptHysteria2 (raw : JsonFields) : Except ParamError Hysteria2 := do
  let p := Protocol.hysteria2
  let password ← requiredText p raw "password"
  let tls ← forcedTls p raw
  let obfs ← nonEmptyText? p raw "obfs_password"
  let up ← bandwidth? p raw "up_mbps"
  return ⟨password, obfs, up, ← bandwidth? p raw "down_mbps", tls⟩

/-- Accepts the parameters of tuic; the password is the uuid unless one is given. -/
def acceptTuic (raw : JsonFields) : Except ParamError Tuic := do
  let p := Protocol.tuic
  let uuid ← requiredUuid p raw
  let password := (← nonEmptyText? p raw "password").getD uuid
  let congestion := (← text? p raw "congestion_control").getD "cubic"
  oneOf p "congestion_control" congestion tuicCongestionControls
  let relay := (← text? p raw "udp_relay_mode").getD "native"
  oneOf p "udp_relay_mode" relay tuicRelayModes
  return ⟨uuid, password, congestion, relay, ← forcedTls p raw⟩

/-- Accepts the parameters of anytls. -/
def acceptAnyTls (raw : JsonFields) : Except ParamError AnyTls := do
  let p := Protocol.anytls
  let password ← requiredText p raw "password"
  return ⟨password, ← forcedTls p raw⟩

/-- Accepts the raw parameters of a protocol. -/
def accept (p : Protocol) (raw : JsonFields) : Except ParamError Params :=
  match p with
  | .anytls => (acceptAnyTls raw).map .anytls
  | .hysteria => (acceptHysteria raw).map .hysteria
  | .hysteria2 => (acceptHysteria2 raw).map .hysteria2
  | .shadowsocks => (acceptShadowsocks raw).map .shadowsocks
  | .trojan => (acceptTrojan raw).map .trojan
  | .tuic => (acceptTuic raw).map .tuic
  | .vless => (acceptVless raw).map .vless
  | .vmess => (acceptVmess raw).map .vmess

end Protocol

namespace Params

/-- Accepts the raw parameters of a protocol named in any letter case. -/
def parse (protocol : String) (raw : JsonFields) : Except ParamError Params :=
  match Protocol.ofAnyCase? protocol with
  | none => .error (.unsupported protocol)
  | some p => p.accept raw

/-- The canonical form of raw parameters. -/
def normalize (protocol : String) (raw : JsonFields) : Except ParamError Json :=
  (parse protocol raw).map canonical

end Params

end ProxyFleet

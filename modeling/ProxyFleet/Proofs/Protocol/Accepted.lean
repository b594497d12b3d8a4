import ProxyFleet.Proofs.Json.Reading
import ProxyFleet.Protocol.Accept

/-!
# Parameters that were accepted

* `Tls.Normal`, `Params.Normal` : the form that accepted parameters have;
* `Raw.tls?_eq` : how TLS settings are read, one setting after the other;
* `Protocol.accept_yields`, `Params.parse_yields_normal` : they have it;
* `Params.Offerable`, `Params.parse_yields` : what has to hold of parameters so that an engine takes
  them, and it holds of all that are accepted;
* `Params.KeyFits`, `Params.parse_yields_keyFits` : the server keys that are accepted;
* `Transport.Normal`, `Params.parse_yields_transport` : the transports that are accepted.
-/

namespace ProxyFleet

set_option autoImplicit false

/-- TLS settings as a protocol that makes this use of TLS accepts them: in force, without empty texts
where these count as absent, and with a handshake only where the protocol has one. -/
structure Tls.Normal (use : Raw.TlsUse) (t : Tls) : Prop where
  enabled : t.enabled = true
  serverName : t.serverName ≠ some ""
  handshake : t.utls.isSome = use.utls
  utls : ∀ u ∈ t.utls, u.enabled = true ∧ u.fingerprint ∈ utlsFingerprints
  reality : ∀ r ∈ t.reality, use.reality = true ∧ r.enabled = true ∧ r.publicKey ≠ ""

/-- A transport as it is accepted: over tcp there is one for the http header only. -/
def Transport.Normal (t : Transport) : Prop := t.network = .tcp → t.headerType = some "http"

/-! ## Raw parameters -/

namespace Raw

variable (p : Protocol) (raw : JsonFields)

theorem requiredText_yields (key : String) : Yields (requiredText p raw key) fun s => s ≠ "" := by
  unfold requiredText
  split
  · exact .error _
  · split_ifs with hempty
    · exact .error _
    · exact .ok (by simpa using hempty)
  · exact .error _

theorem oneOf_yields (key value : String) (allowed : List String) :
    Yields (oneOf p key value allowed) fun _ => value ∈ allowed := by
  unfold oneOf
  split_ifs with hlisted
  · exact .ok (List.contains_iff_mem.1 hlisted)
  · exact .error _

theorem filter_ne_empty (s? : Option String) : s?.filter (!·.isEmpty) ≠ some "" := by
  intro hempty
  exact absurd (Option.filter_eq_some_iff.1 hempty).2 (by decide)

theorem nonEmptyText?_yields (key : String) : Yields (nonEmptyText? p raw key) fun s? => s? ≠ some "" :=
  (Yields.any _).map fun s? _ => filter_ne_empty s?

theorem firstText?_ne_empty (sources : List JsonFields) (keys : List String) :
    firstText? sources keys ≠ some "" := by
  intro hfirst
  obtain ⟨fields, -, hfields⟩ := List.exists_of_findSome?_eq_some hfirst
  obtain ⟨key, -, hkey⟩ := List.exists_of_findSome?_eq_some hfields
  exact filter_ne_empty _ hkey

theorem reality?_yields (tls : JsonFields) :
    Yields (reality? p tls raw) fun r? => ∀ r ∈ r?, r.enabled = true ∧ r.publicKey ≠ "" := by
  unfold reality?
  split
  · exact .ok (by simp)
  · exact .ok (by simp)
  · refine (Yields.any _).bind fun enabled _ => ?_
    split_ifs
    · split
      · exact .error _
      · next publicKey hkey =>
        have hne : publicKey ≠ "" := by
          rintro rfl
          exact filter_ne_empty _ hkey
        exact (Yields.any _).bind fun shortId _ => .ok (by simpa using hne)
    · exact .ok (by simp)
  · exact .error _

/-! ## TLS, one setting after the other -/

/-- The protocols that a handshake may name, from the `tls` object or from beside it. -/
def alpn (tls : JsonFields) : Except ParamError (List String) :=
  match (Json.field? tls "alpn").or (Json.field? raw "alpn") with
  | some v => texts p "alpn" v
  | none => pure []

/-- The client that a handshake imitates, where the protocol has it imitate one. -/
def utls? (use : TlsUse) (tls : JsonFields) : Except ParamError (Option Utls) :=
  if use.utls then do
    oneOf p "fingerprint" (fingerprint tls raw) utlsFingerprints
    return some ⟨true, fingerprint tls raw⟩
  else pure none

/-- The REALITY settings, where the protocol has any. -/
def allowedReality? (use : TlsUse) (tls : JsonFields) : Except ParamError (Option Reality) :=
  if use.reality then reality? p tls raw else pure none

/-- The settings of TLS that is on. -/
def tlsInForce (use : TlsUse) (tls : JsonFields) : Except ParamError Tls := do
  let insecure ← insecure p [tls, raw]
  let alpn ← alpn p raw tls
  let utls ← utls? p raw use tls
  let reality ← allowedReality? p raw use tls
  return { serverName := firstText? [tls, raw] ["server_name", "sni"], insecure, alpn, utls, reality }

theorem tls?_eq (use : TlsUse) : tls? p use raw = tlsSection p use raw >>= fun s =>
    if s.1 then some <$> tlsInForce p raw use s.2 else pure none := by
  obtain ⟨forced, utls, reality⟩ := use
  unfold tls? tlsInForce alpn utls? allowedReality?
  refine bind_congr fun ⟨enabled, tls⟩ => ?_
  dsimp only
  cases (Json.field? tls "alpn").or (Json.field? raw "alpn") with
  | _ =>
    cases enabled with
    | false => rfl
    | true => cases utls with
      | _ => cases reality with
        | _ => simp

theorem utls?_yields (use : TlsUse) (tls : JsonFields) : Yields (utls? p raw use tls) fun u? =>
    u?.isSome = use.utls ∧ ∀ u ∈ u?, u.enabled = true ∧ u.fingerprint ∈ utlsFingerprints := by
  unfold utls?
  split_ifs with huse
  · exact (oneOf_yields p _ _ _).bind fun _ hlisted => .ok ⟨huse.symm, by simpa using hlisted⟩
  · exact .ok ⟨by simpa using huse, by simp⟩

theorem allowedReality?_yields (use : TlsUse) (tls : JsonFields) : Yields (allowedReality? p raw use tls) fun r? =>
    ∀ r ∈ r?, use.reality = true ∧ r.enabled = true ∧ r.publicKey ≠ "" := by
  unfold allowedReality?
  split_ifs with huse
  · exact fun r? hr r hmem => ⟨huse, reality?_yields p raw tls r? hr r hmem⟩
  · exact .ok (by simp)

theorem tlsInForce_yields (use : TlsUse) (tls : JsonFields) :
    Yields (tlsInForce p raw use tls) fun t => t.Normal use := by
  refine (Yields.any _).bind fun insecure _ => ?_
  refine (Yields.any _).bind fun alpn _ => ?_
  refine (utls?_yields p raw use tls).bind fun utls hutls => ?_
  exact (allowedReality?_yields p raw use tls).bind fun reality hreality =>
    .ok ⟨rfl, firstText?_ne_empty _ _, hutls.1, hutls.2, hreality⟩

/-- Where TLS is off there are no settings, and those that there are have the form of settings that are
accepted. -/
theorem tls?_yields (use : TlsUse) : Yields (tls? p use raw) fun t? => ∀ t ∈ t?, t.Normal use := by
  rw [tls?_eq]
  refine (Yields.any _).bind fun s _ => ?_
  split_ifs
  · exact (tlsInForce_yields p raw use s.2).map fun t ht => by simpa using ht
  · exact .ok (by simp)

theorem forcedTls_yields : Yields (forcedTls p raw) fun t => t.Normal { forced := true } := by
  refine (tls?_yields p raw _).bind fun t? h => .ok ?_
  cases t? with
  | none => exact ⟨rfl, by simp, rfl, by simp, by simp⟩
  | some t => exact h t rfl

theorem transport?_yields : Yields (transport? p raw) fun t? => ∀ t ∈ t?, t.Normal := by
  unfold transport?
  refine (Yields.any _).bind fun name? _ => ?_
  cases name? with
  | none => exact .ok (by simp)
  | some name =>
    dsimp only
    split
    · next network _ =>
      refine (Yields.any _).bind fun settings _ => ?_
      cases network with
      | tcp =>
        dsimp only
        split_ifs
        · exact .ok (by simp [Transport.Normal])
        · exact .ok (by simp)
      | grpc => exact .ok (by simp [Transport.Normal])
      | quic => exact (Yields.any _).bind fun _ _ => .ok (by simp [Transport.Normal])
      | _ =>
        exact (Yields.any _).bind fun _ _ => (Yields.any _).bind fun _ _ => .ok (by simp [Transport.Normal])
    · exact .error _

end Raw

/-! ## Accepted parameters -/

namespace Params

/-- Where a method takes a key, the password is one of its length. -/
def KeyFits : Params → Prop
  | shadowsocks p => ∀ size ∈ UserKey.size? p.method, ∃ bytes,
      Base64.standard.decode? p.password.toList = some bytes ∧ bytes.length = size
  | _ => True

/-- The parameters have the form in which their protocol accepts them: what has to be given is there,
what is chosen from a list is listed, and an empty text does not stand where it counts as absent. -/
def Normal : Params → Prop
  | anytls p => p.password ≠ "" ∧ p.tls.Normal { forced := true }
  | hysteria p => p.password ≠ "" ∧ p.obfs ≠ some "" ∧ p.tls.Normal { forced := true }
  | hysteria2 p => p.password ≠ "" ∧ p.obfsPassword ≠ some "" ∧ p.tls.Normal { forced := true }
  | shadowsocks p => p.method ∈ shadowsocksMethods ∧ p.password ≠ "" ∧ (shadowsocks p).KeyFits ∧
      (∀ name ∈ p.plugin, name ∈ shadowsocksPlugins) ∧ p.pluginOpts ≠ some ""
  | trojan p => p.password ≠ "" ∧ p.tls.Normal { forced := true }
  | tuic p => Text.isUuid p.uuid = true ∧ p.password ≠ "" ∧ p.congestionControl ∈ tuicCongestionControls ∧
      p.udpRelayMode ∈ tuicRelayModes ∧ p.tls.Normal { forced := true }
  | vless p => Text.isUuid p.uuid = true ∧ p.flow ∈ vlessFlows ∧ p.encryption = "none" ∧
      p.packetEncoding = "xudp" ∧ ∀ t ∈ p.tls, t.Normal { utls := true, reality := true }
  | vmess p => Text.isUuid p.uuid = true ∧ p.security ∈ vmessSecurities ∧ ∀ t ∈ p.tls, t.Normal {}

/-- An engine takes the parameters: what identifies the user is there, and what is chosen from a
list is listed. -/
def Offerable : Params → Prop
  | anytls p => p.password ≠ ""
  | hysteria p => p.password ≠ ""
  | hysteria2 p => p.password ≠ ""
  | shadowsocks p => p.method ∈ shadowsocksMethods ∧ p.password ≠ ""
  | trojan p => p.password ≠ "" ∧ p.tls.enabled = true
  | tuic p => Text.isUuid p.uuid = true
  | vless p => Text.isUuid p.uuid = true ∧ p.flow ∈ vlessFlows
  | vmess p => Text.isUuid p.uuid = true ∧ p.security ∈ vmessSecurities

theorem Normal.offerable {p : Params} (h : p.Normal) : p.Offerable := by
  cases p with
  | anytls p | hysteria p | hysteria2 p | tuic p => exact h.1
  | trojan p => exact ⟨h.1, h.2.enabled⟩
  | shadowsocks p | vless p | vmess p => exact ⟨h.1, h.2.1⟩

theorem Normal.keyFits {p : Params} (h : p.Normal) : p.KeyFits := by
  cases p with
  | shadowsocks p => exact h.2.2.1
  | _ => trivial

end Params

theorem isUuid_empty : Text.isUuid "" = false := by decide

theorem ne_empty_of_isUuid {uuid : String} (h : Text.isUuid uuid = true) : uuid ≠ "" := by
  rintro rfl
  exact Bool.false_ne_true (isUuid_empty.symm.trans h)

namespace Protocol

open Raw

variable (p : Protocol) (raw : JsonFields)

theorem requiredUuid_yields : Yields (requiredUuid p raw) fun s => Text.isUuid s = true := by
  refine (requiredText_yields p raw "uuid").bind fun uuid _ => ?_
  split_ifs with huuid
  · exact .ok huuid
  · exact .error _

theorem acceptVmess_yields :
    Yields (acceptVmess raw) fun v => (Params.vmess v).Normal ∧ ∀ t ∈ v.transport, t.Normal := by
  refine (requiredUuid_yields .vmess raw).bind fun uuid huuid => ?_
  refine (Yields.any _).bind fun alterId _ => ?_
  dsimp only
  split
  · exact .error _
  refine (Yields.any _).bind fun security _ => ?_
  refine (oneOf_yields _ _ _ _).bind fun _ hsecurity => ?_
  refine (tls?_yields .vmess raw {}).bind fun tls htls => ?_
  exact (transport?_yields .vmess raw).bind fun transport ht => .ok ⟨⟨huuid, hsecurity, htls⟩, ht⟩

theorem acceptVless_yields :
    Yields (acceptVless raw) fun v => (Params.vless v).Normal ∧ ∀ t ∈ v.transport, t.Normal := by
  refine (requiredUuid_yields .vless raw).bind fun uuid huuid => ?_
  refine (Yields.any _).bind fun flow _ => ?_
  refine (oneOf_yields _ _ _ _).bind fun _ hflow => ?_
  refine (Yields.any _).bind fun encryption _ => ?_
  dsimp only
  split
  · exact .error _
  refine (tls?_yields .vless raw { utls := true, reality := true }).bind fun tls htls => ?_
  exact (transport?_yields .vless raw).bind fun transport ht => .ok ⟨⟨huuid, hflow, rfl, rfl, htls⟩, ht⟩

theorem acceptTrojan_yields :
    Yields (acceptTrojan raw) fun v => (Params.trojan v).Normal ∧ ∀ t ∈ v.transport, t.Normal := by
  refine (requiredText_yields .trojan raw "password").bind fun password hpassword => ?_
  refine (forcedTls_yields .trojan raw).bind fun tls htls => ?_
  exact (transport?_yields .trojan raw).bind fun transport ht => .ok ⟨⟨hpassword, htls⟩, ht⟩

theorem checkServerKey_yields (method key : String) (size : Nat) :
    Yields (checkServerKey p method key size) fun _ =>
      ∃ bytes, Base64.standard.decode? key.toList = some bytes ∧ bytes.length = size := by
  unfold checkServerKey
  split
  · exact .error _
  · next bytes hbytes =>
    split_ifs with hlength
    · exact .ok ⟨bytes, hbytes, hlength⟩
    · exact .error _

theorem acceptShadowsocks_yields : Yields (acceptShadowsocks raw) fun v => (Params.shadowsocks v).Normal := by
  refine (Yields.any _).bind fun method _ => ?_
  refine (oneOf_yields _ _ _ _).bind fun _ hmethod => ?_
  refine (requiredText_yields .shadowsocks raw "password").bind fun password hpassword => ?_
  dsimp only
  cases hsize : UserKey.size? method
  -- a method that takes a key is asked for one, and then both go on alike
  case' none =>
    have hfits : ∀ plugin opts, (Params.shadowsocks ⟨method, password, plugin, opts⟩).KeyFits := by
      simp [Params.KeyFits, hsize]
  case' some size =>
    refine (checkServerKey_yields _ _ _ size).bind fun _ hkey => ?_
    have hfits : ∀ plugin opts, (Params.shadowsocks ⟨method, password, plugin, opts⟩).KeyFits := by
      simpa [Params.KeyFits, hsize] using hkey
  all_goals
    refine (Yields.any _).bind fun plugin _ => ?_
    have hopts := nonEmptyText?_yields .shadowsocks raw "plugin_opts"
    cases plugin with
    | none => exact hopts.bind fun opts hne => .ok ⟨hmethod, hpassword, hfits none opts, by simp, hne⟩
    | some name =>
      refine (oneOf_yields _ _ _ _).bind fun _ hplugin => ?_
      exact hopts.bind fun opts hne => .ok ⟨hmethod, hpassword, hfits _ opts, by simpa using hplugin, hne⟩

theorem acceptHysteria_yields : Yields (acceptHysteria raw) fun v => (Params.hysteria v).Normal := by
  refine (requiredText_yields .hysteria raw "password").bind fun password hpassword => ?_
  refine (forcedTls_yields .hysteria raw).bind fun tls htls => ?_
  refine (Yields.any _).bind fun up _ => ?_
  refine (Yields.any _).bind fun down _ => ?_
  exact (nonEmptyText?_yields .hysteria raw "obfs").bind fun obfs hobfs => .ok ⟨hpassword, hobfs, htls⟩

theorem acceptHysteria2_yields : Yields (acceptHysteria2 raw) fun v => (Params.hysteria2 v).Normal := by
  refine (requiredText_yields .hysteria2 raw "password").bind fun password hpassword => ?_
  refine (forcedTls_yields .hysteria2 raw).bind fun tls htls => ?_
  refine (nonEmptyText?_yields .hysteria2 raw "obfs_password").bind fun obfs hobfs => ?_
  refine (Yields.any _).bind fun up _ => ?_
  exact (Yields.any _).bind fun down _ => .ok ⟨hpassword, hobfs, htls⟩

theorem acceptTuic_yields : Yields (acceptTuic raw) fun v => (Params.tuic v).Normal := by
  refine (requiredUuid_yields .tuic raw).bind fun uuid huuid => ?_
  refine (nonEmptyText?_yields .tuic raw "password").bind fun given hgiven => ?_
  -- where no password is given the uuid is one, and it is not empty either
  have hpassword : given.getD uuid ≠ "" := by
    cases given with
    | none => exact ne_empty_of_isUuid huuid
    | some s => exact fun hempty => hgiven (congrArg some hempty)
  refine (Yields.any _).bind fun congestion _ => ?_
  refine (oneOf_yields _ _ _ _).bind fun _ hcongestion => ?_
  refine (Yields.any _).bind fun relay _ => ?_
  refine (oneOf_yields _ _ _ _).bind fun _ hrelay => ?_
  exact (forcedTls_yields .tuic raw).bind fun tls htls =>
    .ok ⟨huuid, hpassword, hcongestion, hrelay, htls⟩

theorem acceptAnyTls_yields : Yields (acceptAnyTls raw) fun v => (Params.anytls v).Normal := by
  refine (requiredText_yields .anytls raw "password").bind fun password hpassword => ?_
  exact (forcedTls_yields .anytls raw).bind fun tls htls => .ok ⟨hpassword, htls⟩

/-- What a protocol accepts are parameters of this protocol, in the form of those that are accepted. -/
theorem accept_yields : Yields (p.accept raw) fun params => params.Normal ∧ params.protocol = p := by
  cases p with
  | anytls => exact (acceptAnyTls_yields raw).map fun _ h => ⟨h, rfl⟩
  | hysteria => exact (acceptHysteria_yields raw).map fun _ h => ⟨h, rfl⟩
  | hysteria2 => exact (acceptHysteria2_yields raw).map fun _ h => ⟨h, rfl⟩
  | shadowsocks => exact (acceptShadowsocks_yields raw).map fun _ h => ⟨h, rfl⟩
  | trojan => exact (acceptTrojan_yields raw).map fun _ h => ⟨h.1, rfl⟩
  | tuic => exact (acceptTuic_yields raw).map fun _ h => ⟨h, rfl⟩
  | vless => exact (acceptVless_yields raw).map fun _ h => ⟨h.1, rfl⟩
  | vmess => exact (acceptVmess_yields raw).map fun _ h => ⟨h.1, rfl⟩

theorem accept_yields_transport : Yields (p.accept raw) fun params => ∀ t ∈ params.transport?, t.Normal := by
  cases p with
  | trojan => exact (acceptTrojan_yields raw).map fun _ h => h.2
  | vless => exact (acceptVless_yields raw).map fun _ h => h.2
  | vmess => exact (acceptVmess_yields raw).map fun _ h => h.2
  | _ => exact (Yields.any _).map fun _ _ => by simp [Params.transport?]

end Protocol

namespace Params

variable (protocol : String) (raw : JsonFields)

/-- Parameters that are accepted have the form of such, for the protocol that is named. -/
theorem parse_yields_normal : Yields (parse protocol raw) fun params =>
    params.Normal ∧ Protocol.ofAnyCase? protocol = some params.protocol := by
  unfold parse
  split
  · exact .error _
  · next p hp =>
    rintro params haccept
    obtain ⟨hnormal, hprotocol⟩ := Protocol.accept_yields p raw params haccept
    exact ⟨hnormal, hp.trans (congrArg some hprotocol.symm)⟩

theorem parse_yields_transport : Yields (parse protocol raw) fun params => ∀ t ∈ params.transport?, t.Normal := by
  unfold parse
  split
  · exact .error _
  · exact Protocol.accept_yields_transport _ raw

/-- An engine takes all parameters that are accepted. -/
theorem parse_yields : Yields (parse protocol raw) Offerable :=
  fun params h => (parse_yields_normal protocol raw params h).1.offerable

/-- The server keys of parameters that are accepted have the length that their method asks for. -/
theorem parse_yields_keyFits : Yields (parse protocol raw) KeyFits :=
  fun params h => (parse_yields_normal protocol raw params h).1.keyFits

end Params

end ProxyFleet

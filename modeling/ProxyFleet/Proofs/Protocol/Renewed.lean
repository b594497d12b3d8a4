import ProxyFleet.Proofs.Protocol.Reread

/-!
# Canonical parameters as raw ones

The canonical form of accepted parameters is accepted as a raw form of the same protocol. Each field is
found again under its name; only the transport is not, because a raw form has it under `network` and
`network_settings`, and a canonical one under `transport`.

* `Params.withoutTransport` : what is left of parameters then;
* `Protocol.accept_canonical`, `Params.parse_canonical` : it is what is accepted of a canonical form;
* `Params.canonical_roundtrip` : a canonical form has what is required, and is read as the parameters.
-/

namespace ProxyFleet

set_option autoImplicit false

open Json (Holds)

namespace Params

/-- The parameters over a plain stream. -/
def withoutTransport : Params → Params
  | trojan p => trojan { p with transport := none }
  | vless p => vless { p with transport := none }
  | vmess p => vmess { p with transport := none }
  | p => p

@[simp] theorem protocol_withoutTransport (p : Params) : p.withoutTransport.protocol = p.protocol := by
  cases p with
  | _ => rfl

theorem withoutTransport_eq_self_iff {p : Params} : p.withoutTransport = p ↔ p.transport? = none := by
  cases p with
  | trojan p | vless p | vmess p =>
    cases p
    simp [withoutTransport, transport?, eq_comm]
  | _ => simp [withoutTransport, transport?]

/-- A canonical form holds the fields of the parameters and no others. -/
theorem holds_canonical {p : Params} {form : JsonFields} (hform : p.canonical = .obj form) :
    Holds form p.fields [] := by
  have hnodup : (p.fields.map (·.1)).Nodup := by
    cases p with
    | _ => simp [fields]
  obtain ⟨form', hform', h⟩ := Json.holds_record hnodup
  obtain rfl : form' = form := Json.obj.inj (hform'.symm.trans hform)
  exact h

/-- No name that raw parameters have beside the canonical ones is a canonical name. -/
theorem absent_of_holds {p : Params} {form : JsonFields} (h : Holds form p.fields []) :
    (∀ key ∈ Raw.besideTls, Json.field? form key = none) ∧ Json.field? form "network" = none := by
  have hnames : ∀ key ∈ "network" :: Raw.besideTls, key ∉ p.fields.map (·.1) := by
    cases p with
    | _ => simp [fields, Raw.besideTls]
  have habsent := fun key hkey => h.absent (hnames key hkey)
  exact (List.forall_mem_cons.1 habsent).symm

end Params

namespace Protocol

open Raw

variable {form : JsonFields}

theorem requiredUuid_eq_ok {p : Protocol} {uuid : String} (huuid : Text.isUuid uuid = true)
    (h : Json.field? form "uuid" = (some (.str uuid)).map Json.sorted) : requiredUuid p form = .ok uuid := by
  rw [requiredUuid, requiredText_eq_ok h (ne_empty_of_isUuid huuid)]
  exact if_pos huuid

theorem acceptVmess_eq_ok {v : Vmess} (hv : (Params.vmess v).Normal) (h : Holds form (Params.vmess v).fields []) :
    acceptVmess form = .ok { v with transport := none } := by
  obtain ⟨huuid, hsecurity, htls⟩ := hv
  obtain ⟨hbeside, hnetwork⟩ := Params.absent_of_holds h
  have huuid' : requiredUuid .vmess form = .ok v.uuid :=
    requiredUuid_eq_ok huuid (h.field "uuid" _ (by simp [Params.fields]))
  have halter : nat? .vmess form "alter_id" = .ok (some v.alterId.toNat) :=
    nat?_of_some (h.field "alter_id" _ (by simp [Params.fields]))
  have hsecurity' : text? .vmess form "security" = .ok (some v.security) :=
    text?_of_some (h.field "security" _ (by simp [Params.fields]))
  have htls' : tls? .vmess {} form = .ok v.tls :=
    optionalTls_eq_ok rfl htls (h.field "tls" _ (by simp [Params.fields])) hbeside
  have hsixteen : ¬65535 < v.alterId.toNat := by
    have := v.alterId.toNat_lt
    omega
  simp only [acceptVmess, huuid', halter, hsecurity', htls', oneOf_eq_ok hsecurity, transport?_of_none hnetwork,
    bind, Except.bind, pure, Except.pure, Option.getD_some, if_neg hsixteen, UInt16.ofNat_toNat]

theorem acceptVless_eq_ok {v : Vless} (hv : (Params.vless v).Normal) (h : Holds form (Params.vless v).fields []) :
    acceptVless form = .ok { v with transport := none } := by
  obtain ⟨huuid, hflow, hencryption, hpackets, htls⟩ := hv
  obtain ⟨hbeside, hnetwork⟩ := Params.absent_of_holds h
  have huuid' : requiredUuid .vless form = .ok v.uuid :=
    requiredUuid_eq_ok huuid (h.field "uuid" _ (by simp [Params.fields]))
  obtain ⟨flow?, hflow?, hflow'⟩ : ∃ s?, text? .vless form "flow" = .ok s? ∧ s?.getD "" = v.flow :=
    exists_text? (h.field "flow" (Json.nonEmptyText v.flow) (by simp [Params.fields]))
  have hencryption' : text? .vless form "encryption" = .ok (some v.encryption) :=
    text?_of_some (h.field "encryption" _ (by simp [Params.fields]))
  have htls' : tls? .vless { utls := true, reality := true } form = .ok v.tls :=
    optionalTls_eq_ok rfl htls (h.field "tls" _ (by simp [Params.fields])) hbeside
  simp only [acceptVless, huuid', hflow?, hflow', hencryption', htls', oneOf_eq_ok hflow,
    transport?_of_none hnetwork, bind, Except.bind, pure, Except.pure, Option.getD_some, hencryption, ne_eq,
    not_true_eq_false, if_false]
  rw [← hencryption, ← hpackets]

theorem acceptTrojan_eq_ok {v : Trojan} (hv : (Params.trojan v).Normal)
    (h : Holds form (Params.trojan v).fields []) : acceptTrojan form = .ok { v with transport := none } := by
  obtain ⟨hpassword, htls⟩ := hv
  obtain ⟨hbeside, hnetwork⟩ := Params.absent_of_holds h
  have hpassword' : requiredText .trojan form "password" = .ok v.password :=
    requiredText_eq_ok (h.field "password" _ (by simp [Params.fields])) hpassword
  have htls' : forcedTls .trojan form = .ok v.tls :=
    forcedTls_eq_ok htls (h.field "tls" _ (by simp [Params.fields])) hbeside
  rw [acceptTrojan, hpassword', htls', transport?_of_none hnetwork]
  rfl

theorem checkServerKey_eq_ok {p : Protocol} {method key : String} {size : Nat}
    (h : ∃ bytes, Base64.standard.decode? key.toList = some bytes ∧ bytes.length = size) :
    checkServerKey p method key size = .ok () := by
  obtain ⟨bytes, hbytes, hlength⟩ := h
  rw [checkServerKey, hbytes]
  exact if_pos hlength

theorem acceptShadowsocks_eq_ok {v : Shadowsocks} (hv : (Params.shadowsocks v).Normal)
    (h : Holds form (Params.shadowsocks v).fields []) : acceptShadowsocks form = .ok v := by
  obtain ⟨hmethod, hpassword, hfits, hplugin, hopts⟩ := hv
  have hlisted : v.method ≠ "" ∧ v.plugin ≠ some "" := by
    constructor
    · intro hempty
      exact absurd (hempty ▸ hmethod) (by decide)
    · intro hempty
      exact absurd (hplugin "" hempty) (by decide)
  have hmethod' : requiredText .shadowsocks form "method" = .ok v.method :=
    requiredText_eq_ok (h.field "method" _ (by simp [Params.fields])) hlisted.1
  have hpassword' : requiredText .shadowsocks form "password" = .ok v.password :=
    requiredText_eq_ok (h.field "password" _ (by simp [Params.fields])) hpassword
  have hplugin' : nonEmptyText? .shadowsocks form "plugin" = .ok v.plugin :=
    nonEmptyText?_eq_ok (h.field "plugin" _ (by simp [Params.fields])) hlisted.2
  have hopts' : nonEmptyText? .shadowsocks form "plugin_opts" = .ok v.pluginOpts :=
    nonEmptyText?_eq_ok (h.field "plugin_opts" _ (by simp [Params.fields])) hopts
  simp only [acceptShadowsocks, hmethod', oneOf_eq_ok hmethod, hpassword', hplugin', hopts', bind, Except.bind,
    pure, Except.pure]
  -- the key is checked where the method takes one, and the plugin where there is one
  cases hsize : UserKey.size? v.method with
  | none =>
    cases hname : v.plugin with
    | none => simp only [← hname]
    | some name => simp only [oneOf_eq_ok (hplugin name hname), ← hname]
  | some size =>
    simp only [checkServerKey_eq_ok (hfits size hsize)]
    cases hname : v.plugin with
    | none => simp only [← hname]
    | some name => simp only [oneOf_eq_ok (hplugin name hname), ← hname]

theorem acceptHysteria_eq_ok {v : Hysteria} (hv : (Params.hysteria v).Normal)
    (h : Holds form (Params.hysteria v).fields []) : acceptHysteria form = .ok v := by
  obtain ⟨hpassword, hobfs, htls⟩ := hv
  have hbeside := (Params.absent_of_holds h).1
  have hpassword' : requiredText .hysteria form "password" = .ok v.password :=
    requiredText_eq_ok (h.field "password" _ (by simp [Params.fields])) hpassword
  have htls' : forcedTls .hysteria form = .ok v.tls :=
    forcedTls_eq_ok htls (h.field "tls" _ (by simp [Params.fields])) hbeside
  have hup : bandwidth? .hysteria form "up_mbps" = .ok (some v.upMbps) :=
    bandwidth?_of_some (h.field "up_mbps" _ (by simp [Params.fields]))
  have hdown : bandwidth? .hysteria form "down_mbps" = .ok (some v.downMbps) :=
    bandwidth?_of_some (h.field "down_mbps" _ (by simp [Params.fields]))
  have hobfs' : nonEmptyText? .hysteria form "obfs" = .ok v.obfs :=
    nonEmptyText?_eq_ok (h.field "obfs" _ (by simp [Params.fields])) hobfs
  rw [acceptHysteria, hpassword', htls', hup, hdown, hobfs']
  rfl

theorem acceptHysteria2_eq_ok {v : Hysteria2} (hv : (Params.hysteria2 v).Normal)
    (h : Holds form (Params.hysteria2 v).fields []) : acceptHysteria2 form = .ok v := by
  obtain ⟨hpassword, hobfs, htls⟩ := hv
  have hbeside := (Params.absent_of_holds h).1
  have hpassword' : requiredText .hysteria2 form "password" = .ok v.password :=
    requiredText_eq_ok (h.field "password" _ (by simp [Params.fields])) hpassword
  have htls' : forcedTls .hysteria2 form = .ok v.tls :=
    forcedTls_eq_ok htls (h.field "tls" _ (by simp [Params.fields])) hbeside
  have hobfs' : nonEmptyText? .hysteria2 form "obfs_password" = .ok v.obfsPassword :=
    nonEmptyText?_eq_ok (h.field "obfs_password" _ (by simp [Params.fields])) hobfs
  have hup : bandwidth? .hysteria2 form "up_mbps" = .ok v.upMbps :=
    bandwidth?_eq_ok (h.field "up_mbps" _ (by simp [Params.fields]))
  have hdown : bandwidth? .hysteria2 form "down_mbps" = .ok v.downMbps :=
    bandwidth?_eq_ok (h.field "down_mbps" _ (by simp [Params.fields]))
  rw [acceptHysteria2, hpassword', htls', hobfs', hup, hdown]
  rfl

theorem acceptTuic_eq_ok {v : Tuic} (hv : (Params.tuic v).Normal) (h : Holds form (Params.tuic v).fields []) :
    acceptTuic form = .ok v := by
  obtain ⟨huuid, hpassword, hcongestion, hrelay, htls⟩ := hv
  have hbeside := (Params.absent_of_holds h).1
  have huuid' : requiredUuid .tuic form = .ok v.uuid :=
    requiredUuid_eq_ok huuid (h.field "uuid" _ (by simp [Params.fields]))
  have hpassword' : nonEmptyText? .tuic form "password" = .ok (some v.password) :=
    nonEmptyText?_eq_ok (o := some v.password) (h.field "password" _ (by simp [Params.fields]))
      (by simpa using hpassword)
  have hcongestion' : text? .tuic form "congestion_control" = .ok (some v.congestionControl) :=
    text?_of_some (h.field "congestion_control" _ (by simp [Params.fields]))
  have hrelay' : text? .tuic form "udp_relay_mode" = .ok (some v.udpRelayMode) :=
    text?_of_some (h.field "udp_relay_mode" _ (by simp [Params.fields]))
  have htls' : forcedTls .tuic form = .ok v.tls :=
    forcedTls_eq_ok htls (h.field "tls" _ (by simp [Params.fields])) hbeside
  simp only [acceptTuic, huuid', hpassword', hcongestion', hrelay', htls', oneOf_eq_ok hcongestion, oneOf_eq_ok hrelay,
    bind, Except.bind, pure, Except.pure, Option.getD_some]

theorem acceptAnyTls_eq_ok {v : AnyTls} (hv : (Params.anytls v).Normal)
    (h : Holds form (Params.anytls v).fields []) : acceptAnyTls form = .ok v := by
  obtain ⟨hpassword, htls⟩ := hv
  have hpassword' : requiredText .anytls form "password" = .ok v.password :=
    requiredText_eq_ok (h.field "password" _ (by simp [Params.fields])) hpassword
  have htls' : forcedTls .anytls form = .ok v.tls :=
    forcedTls_eq_ok htls (h.field "tls" _ (by simp [Params.fields])) (Params.absent_of_holds h).1
  rw [acceptAnyTls, hpassword', htls']
  rfl

/-- From a canonical form the parameters are accepted again, but without their transport. -/
theorem accept_canonical {p : Params} (hp : p.Normal) (hform : p.canonical = .obj form) :
    p.protocol.accept form = .ok p.withoutTransport := by
  have h := Params.holds_canonical hform
  cases p with
  | anytls v => exact congrArg (Except.map _) (acceptAnyTls_eq_ok hp h)
  | hysteria v => exact congrArg (Except.map _) (acceptHysteria_eq_ok hp h)
  | hysteria2 v => exact congrArg (Except.map _) (acceptHysteria2_eq_ok hp h)
  | shadowsocks v => exact congrArg (Except.map _) (acceptShadowsocks_eq_ok hp h)
  | trojan v => exact congrArg (Except.map _) (acceptTrojan_eq_ok hp h)
  | tuic v => exact congrArg (Except.map _) (acceptTuic_eq_ok hp h)
  | vless v => exact congrArg (Except.map _) (acceptVless_eq_ok hp h)
  | vmess v => exact congrArg (Except.map _) (acceptVmess_eq_ok hp h)

end Protocol

namespace Params

variable {protocol : String} {p : Params} {form : JsonFields}

/-- What is accepted of the canonical form of parameters, under any name of their protocol. -/
theorem parse_canonical (hp : p.Normal) (hprotocol : Protocol.ofAnyCase? protocol = some p.protocol)
    (hform : p.canonical = .obj form) : parse protocol form = .ok p.withoutTransport := by
  rw [parse, hprotocol]
  exact Protocol.accept_canonical hp hform

/-- What has to be given is a text that is not empty. -/
theorem Normal.required (hp : p.Normal) :
    ∀ key ∈ p.protocol.requiredParams, ∃ s, s ≠ "" ∧ (key, some (.str s)) ∈ p.fields := by
  intro key hkey
  cases p with
  | anytls v | hysteria v | hysteria2 v | trojan v =>
    obtain rfl : key = "password" := List.mem_singleton.1 hkey
    exact ⟨v.password, hp.1, by simp [fields]⟩
  | tuic v | vless v | vmess v =>
    obtain rfl : key = "uuid" := List.mem_singleton.1 hkey
    exact ⟨v.uuid, ne_empty_of_isUuid hp.1, by simp [fields]⟩
  | shadowsocks v =>
    obtain ⟨hmethod, hpassword, -⟩ := hp
    have hne : v.method ≠ "" := by
      intro hempty
      exact absurd (hempty ▸ hmethod) (by decide)
    rcases List.mem_pair.1 hkey with rfl | rfl
    · exact ⟨v.method, hne, by simp [fields]⟩
    · exact ⟨v.password, hpassword, by simp [fields]⟩

/-- **Canonical parameters are had back.** Parameters of any protocol are read from their canonical form
as they are. And what a protocol accepts has a canonical form in which all that has to be given is a text
that is not empty, and from which exactly the accepted parameters are read. -/
theorem canonical_roundtrip :
    (∀ p : Params, ∃ form, p.canonical = .obj form ∧ ofCanonical p.protocol.name form = .ok p) ∧
    ∀ (protocol : String) (raw : JsonFields) (p : Params), parse protocol raw = .ok p →
      Protocol.ofAnyCase? protocol = some p.protocol ∧
      ∃ form, normalize protocol raw = .ok (.obj form) ∧
        (∀ key ∈ p.protocol.requiredParams, ∃ s, s ≠ "" ∧ Json.field? form key = some (.str s)) ∧
        ofCanonical p.protocol.name form = .ok p := by
  constructor
  · intro p
    obtain ⟨form, hform, -⟩ := p.canonical_eq_obj
    exact ⟨form, hform, ofCanonical_canonical hform⟩
  · intro protocol raw p hparse
    obtain ⟨hp, hprotocol⟩ := parse_yields_normal protocol raw p hparse
    obtain ⟨form, hform, -⟩ := p.canonical_eq_obj
    refine ⟨hprotocol, form, ?_, fun key hkey => ?_, ofCanonical_canonical hform⟩
    · rw [normalize, hparse, ← hform]
      rfl
    · obtain ⟨s, hs, hfield⟩ := hp.required key hkey
      refine ⟨s, hs, ?_⟩
      rw [(holds_canonical hform).field key _ hfield, Option.map_some, Json.sorted_str]

/-- A vless node behind a websocket, with REALITY, its protocol in mixed case. -/
def sampleRaw : JsonFields :=
  [("uuid", .str "aaaaaaaa-0000-4000-8000-000000000001"), ("network", .str "ws"),
   ("tls", .obj [("alpn", .str "h2"), ("reality", .obj [("public_key", .str "key")])])]

theorem canonical_roundtrip_vless :
    ∃ p, parse "VLESS" sampleRaw = .ok p ∧ Protocol.ofAnyCase? "VLESS" = some p.protocol ∧
      ∃ form, normalize "VLESS" sampleRaw = .ok (.obj form) ∧
        (∀ key ∈ p.protocol.requiredParams, ∃ s, s ≠ "" ∧ Json.field? form key = some (.str s)) ∧
        ofCanonical p.protocol.name form = .ok p := by
  have hparse : parse "VLESS" sampleRaw = .ok (.vless
      { uuid := "aaaaaaaa-0000-4000-8000-000000000001", flow := "", encryption := "none", packetEncoding := "xudp"
        tls := some { alpn := ["h2"], utls := some ⟨true, "chrome"⟩, reality := some ⟨true, "key", ""⟩ }
        transport := some { network := .ws, path := "/" } }) := by rfl
  exact ⟨_, hparse, canonical_roundtrip.2 "VLESS" sampleRaw _ hparse⟩

end Params

end ProxyFleet

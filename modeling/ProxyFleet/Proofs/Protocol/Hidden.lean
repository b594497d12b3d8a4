import ProxyFleet.Proofs.Protocol.Nulls

/-!
# Values that a null hides

* `Protocol.Hides` : where a `null` hides a value that would be read without it;
* `Protocol.accept_of_not_hides` : where there is none, it does not matter which of the `null`s are there;
* `Protocol.accept_readAs` : what accepted parameters show of the settings that were read;
* `Protocol.accept_stripped_ne` : where there is one, other parameters are accepted without it;
* `Params.parse_thinned_iff` : exactly where it does not matter which of the `null`s are there.
-/

namespace ProxyFleet

set_option autoImplicit false

open Json (Thinned ThinnedField)

namespace Protocol

open Raw

variable {p : Protocol} {raw raw' : JsonFields}

/-- What a protocol makes of TLS, where it has it. -/
def tlsUse? : Protocol → Option TlsUse
  | vmess => some {}
  | vless => some { utls := true, reality := true }
  | trojan | hysteria | hysteria2 | tuic | anytls => some { forced := true }
  | shadowsocks => none

/-- Whether a protocol is spoken over a transport that can be chosen. -/
def hasTransport : Protocol → Bool
  | vmess | vless | trojan => true
  | shadowsocks | hysteria | hysteria2 | tuic | anytls => false

/-- A `null` in the TLS settings, or in a place for the hosts of a websocket, hides a value that would be
read were the `null` not there. -/
inductive Hides (p : Protocol) (raw : JsonFields) : Prop where
  | alpn (use : TlsUse) (uses : p.tlsUse? = some use) (tls : JsonFields)
    (on : tlsSection p use raw = .ok (true, tls)) (null : Json.field? tls "alpn" = some .null)
    (beside : Raw.alpn p raw [] ≠ .ok [])
  | reality (use : TlsUse) (uses : p.tlsUse? = some use) (tls : JsonFields)
    (on : tlsSection p use raw = .ok (true, tls)) (allowed : use.reality = true)
    (null : Json.field? tls "reality" = some .null) (beside : reality? p [] raw ≠ .ok none)
  | hosts (chosen : p.hasTransport = true) (name : String) (network : text? p raw "network" = .ok (some name))
    (websocket : Network.ofName? name = some .ws) (settings : JsonFields)
    (held : object p raw "network_settings" = .ok settings)
    (null : Json.firstThere (hostPlaces settings) = some .null)
    (given : Raw.hosts p (Json.firstGiven (hostPlaces settings)) ≠ .ok [])

section Visible

variable (hides : ¬p.Hides raw) (h : Thinned (.obj raw) (.obj raw'))

include hides h

theorem tls?_of_not_hides {use : TlsUse} (uses : p.tlsUse? = some use) : tls? p use raw' = tls? p use raw := by
  refine tls?_thinned use h (fun tls on null => ?_) fun tls on allowed null => ?_
  · by_contra hbeside
    exact hides (.alpn use uses tls on null hbeside)
  · by_contra hbeside
    exact hides (.reality use uses tls on allowed null hbeside)

theorem forcedTls_of_not_hides (uses : p.tlsUse? = some { forced := true }) : forcedTls p raw' = forcedTls p raw := by
  rw [forcedTls, tls?_of_not_hides hides h uses, forcedTls]

theorem transport?_of_not_hides (chosen : p.hasTransport = true) : transport? p raw' = transport? p raw := by
  refine transport?_thinned h fun name settings network websocket held null => ?_
  by_contra hgiven
  exact hides (.hosts chosen name network websocket settings held null hgiven)

end Visible

/-- Where no `null` hides a value, it does not matter which of them are there. -/
theorem accept_of_not_hides (hides : ¬p.Hides raw) (h : Thinned (.obj raw) (.obj raw')) :
    p.accept raw' = p.accept raw := by
  cases p with
  | vmess =>
    simp only [accept, acceptVmess, requiredUuid, requiredText_thinned h, nat?_thinned h, text?_thinned h,
      tls?_of_not_hides hides h rfl, transport?_of_not_hides hides h rfl]
  | vless =>
    simp only [accept, acceptVless, requiredUuid, requiredText_thinned h, text?_thinned h,
      tls?_of_not_hides hides h rfl, transport?_of_not_hides hides h rfl]
  | trojan =>
    simp only [accept, acceptTrojan, requiredText_thinned h, forcedTls_of_not_hides hides h rfl,
      transport?_of_not_hides hides h rfl]
  | shadowsocks =>
    simp only [accept, acceptShadowsocks, requiredText_thinned h, nonEmptyText?_thinned h]
  | hysteria =>
    simp only [accept, acceptHysteria, requiredText_thinned h, forcedTls_of_not_hides hides h rfl, bandwidth?_thinned h,
      nonEmptyText?_thinned h]
  | hysteria2 =>
    simp only [accept, acceptHysteria2, requiredText_thinned h, forcedTls_of_not_hides hides h rfl,
      bandwidth?_thinned h, nonEmptyText?_thinned h]
  | tuic =>
    simp only [accept, acceptTuic, requiredUuid, requiredText_thinned h, text?_thinned h, nonEmptyText?_thinned h,
      forcedTls_of_not_hides hides h rfl]
  | anytls =>
    simp only [accept, acceptAnyTls, requiredText_thinned h, forcedTls_of_not_hides hides h rfl]

/-! ## What an accepted form shows of the readings -/

/-- The parameters have what is read of TLS and of the transport. -/
structure ReadAs (p : Protocol) (raw : JsonFields) (params : Params) : Prop where
  tls : ∀ use, p.tlsUse? = some use → tls? p use raw = .ok params.storedTls?
  transport : p.hasTransport = true → transport? p raw = .ok params.transport?

theorem forcedTls_reads (p : Protocol) (raw : JsonFields) :
    Yields (forcedTls p raw) fun t => tls? p { forced := true } raw = .ok (some t) := by
  intro t ht
  obtain ⟨t?, ht?, hget⟩ := exists_of_bind_eq_ok ht
  -- TLS that is forced is on
  have hsome : Yields (tls? p { forced := true } raw) fun t? => t?.isSome := by
    rw [tls?_eq]
    have hon : Yields (tlsSection p { forced := true } raw) fun s => s.1 = true := by
      unfold tlsSection
      split
      · exact .ok rfl
      · exact .ok (Bool.or_true _)
      · exact (Yields.any _).bind fun enabled _ => .ok (Bool.or_true _)
      · exact .error _
    refine hon.bind fun s hs => ?_
    rw [if_pos hs]
    exact (Yields.any _).map fun t _ => rfl
  obtain ⟨t', rfl⟩ := Option.isSome_iff_exists.1 (hsome t? ht?)
  cases hget
  exact ht?

section Reads

variable (raw : JsonFields)

theorem acceptVmess_readAs : Yields (acceptVmess raw) fun v => ReadAs .vmess raw (.vmess v) := by
  refine (Yields.any _).bind fun uuid _ => (Yields.any _).bind fun alterId _ => ?_
  dsimp only
  split
  · exact .error _
  refine (Yields.any _).bind fun security _ => (Yields.any _).bind fun _ _ => ?_
  refine Yields.bind (fun _ h => h) fun tls htls => Yields.bind (fun _ h => h) fun transport htransport => .ok ?_
  exact ⟨fun use uses => Option.some.inj uses ▸ htls, fun _ => htransport⟩

theorem acceptVless_readAs : Yields (acceptVless raw) fun v => ReadAs .vless raw (.vless v) := by
  refine (Yields.any _).bind fun uuid _ => (Yields.any _).bind fun flow _ => ?_
  refine (Yields.any _).bind fun _ _ => (Yields.any _).bind fun encryption _ => ?_
  dsimp only
  split
  · exact .error _
  refine Yields.bind (fun _ h => h) fun tls htls => Yields.bind (fun _ h => h) fun transport htransport => .ok ?_
  exact ⟨fun use uses => Option.some.inj uses ▸ htls, fun _ => htransport⟩

theorem acceptTrojan_readAs : Yields (acceptTrojan raw) fun v => ReadAs .trojan raw (.trojan v) := by
  refine (Yields.any _).bind fun password _ => (forcedTls_reads _ raw).bind fun tls htls => ?_
  refine Yields.bind (fun _ h => h) fun transport htransport => .ok ?_
  exact ⟨fun use uses => Option.some.inj uses ▸ htls, fun _ => htransport⟩

theorem acceptHysteria_readAs : Yields (acceptHysteria raw) fun v => ReadAs .hysteria raw (.hysteria v) := by
  refine (Yields.any _).bind fun password _ => (forcedTls_reads _ raw).bind fun tls htls => ?_
  refine (Yields.any _).bind fun up _ => (Yields.any _).bind fun down _ => (Yields.any _).bind fun obfs _ => .ok ?_
  exact ⟨fun use uses => Option.some.inj uses ▸ htls, nofun⟩

theorem acceptHysteria2_readAs : Yields (acceptHysteria2 raw) fun v => ReadAs .hysteria2 raw (.hysteria2 v) := by
  refine (Yields.any _).bind fun password _ => (forcedTls_reads _ raw).bind fun tls htls => ?_
  refine (Yields.any _).bind fun obfs _ => (Yields.any _).bind fun up _ => (Yields.any _).bind fun down _ => .ok ?_
  exact ⟨fun use uses => Option.some.inj uses ▸ htls, nofun⟩

theorem acceptTuic_readAs : Yields (acceptTuic raw) fun v => ReadAs .tuic raw (.tuic v) := by
  refine (Yields.any _).bind fun uuid _ => (Yields.any _).bind fun password _ => ?_
  refine (Yields.any _).bind fun congestion _ => (Yields.any _).bind fun _ _ => ?_
  refine (Yields.any _).bind fun relay _ => (Yields.any _).bind fun _ _ => ?_
  refine (forcedTls_reads _ raw).bind fun tls htls => .ok ?_
  exact ⟨fun use uses => Option.some.inj uses ▸ htls, nofun⟩

theorem acceptAnyTls_readAs : Yields (acceptAnyTls raw) fun v => ReadAs .anytls raw (.anytls v) := by
  refine (Yields.any _).bind fun password _ => (forcedTls_reads _ raw).bind fun tls htls => .ok ?_
  exact ⟨fun use uses => Option.some.inj uses ▸ htls, nofun⟩

theorem accept_readAs (p : Protocol) : Yields (p.accept raw) (p.ReadAs raw) := by
  cases p with
  | anytls => exact (acceptAnyTls_readAs raw).map fun _ h => h
  | hysteria => exact (acceptHysteria_readAs raw).map fun _ h => h
  | hysteria2 => exact (acceptHysteria2_readAs raw).map fun _ h => h
  | shadowsocks => exact fun params _ => ⟨nofun, nofun⟩
  | trojan => exact (acceptTrojan_readAs raw).map fun _ h => h
  | tuic => exact (acceptTuic_readAs raw).map fun _ h => h
  | vless => exact (acceptVless_readAs raw).map fun _ h => h
  | vmess => exact (acceptVmess_readAs raw).map fun _ h => h

end Reads

theorem inForce_of_reads {use : TlsUse} {tls : JsonFields} {t? : Option Tls}
    (on : tlsSection p use raw = .ok (true, tls)) (h : tls? p use raw = .ok t?) :
    ∃ t : Tls, t? = some t ∧ Raw.alpn p raw tls = .ok t.alpn ∧ allowedReality? p raw use tls = .ok t.reality := by
  rw [tls?_eq, on] at h
  change some <$> tlsInForce p raw use tls = .ok t? at h
  cases ht : tlsInForce p raw use tls with
  | error e =>
    rw [ht] at h
    cases h
  | ok t =>
    rw [ht] at h
    cases h
    obtain ⟨insecure, -, hrest⟩ := exists_of_bind_eq_ok ht
    obtain ⟨alpn, halpn, hrest⟩ := exists_of_bind_eq_ok hrest
    obtain ⟨utls, -, hrest⟩ := exists_of_bind_eq_ok hrest
    obtain ⟨reality, hreality, hrest⟩ := exists_of_bind_eq_ok hrest
    cases hrest
    exact ⟨_, rfl, halpn, hreality⟩

theorem hosts_of_reads {name : String} {settings : JsonFields} {t? : Option Transport}
    (network : text? p raw "network" = .ok (some name)) (websocket : Network.ofName? name = some .ws)
    (held : object p raw "network_settings" = .ok settings) (h : transport? p raw = .ok t?) :
    ∃ t : Transport, t? = some t ∧ Raw.hosts p (websocketHost? settings) = .ok t.host := by
  obtain ⟨name?, hname, hrest⟩ := exists_of_bind_eq_ok h
  obtain rfl : some name = name? := Except.ok.inj (network.symm.trans hname)
  dsimp only at hrest
  rw [websocket] at hrest
  obtain ⟨settings', hsettings, hrest⟩ := exists_of_bind_eq_ok hrest
  obtain rfl : settings = settings' := Except.ok.inj (held.symm.trans hsettings)
  obtain ⟨path, -, hrest⟩ := exists_of_bind_eq_ok hrest
  obtain ⟨hosts, hhosts, hrest⟩ := exists_of_bind_eq_ok hrest
  cases hrest
  exact ⟨_, rfl, hhosts⟩

/-- Where a `null` hides a value, what is accepted is not what is accepted without it. -/
theorem accept_stripped_ne {params : Params} (haccept : p.accept raw = .ok params) (hides : p.Hides raw) :
    p.accept (Json.stripped raw) ≠ .ok params := by
  intro hstripped
  have hread := accept_readAs raw p params haccept
  have hread' := accept_readAs (Json.stripped raw) p params hstripped
  -- both show one value, which is read of nothing in the first and of what the `null` hides in the second
  cases hides with
  | alpn use uses tls on null beside =>
    obtain ⟨t, ht, halpn, -⟩ := inForce_of_reads on (hread.tls use uses)
    obtain ⟨t', ht', halpn', -⟩ := inForce_of_reads (tlsSection_stripped on) (hread'.tls use uses)
    obtain rfl : t = t' := Option.some.inj (ht.symm.trans ht')
    exact beside ((alpn_stripped null).symm.trans (halpn'.trans (halpn.symm.trans (alpn_of_null null))))
  | reality use uses tls on allowed null beside =>
    obtain ⟨t, ht, -, hreality⟩ := inForce_of_reads on (hread.tls use uses)
    obtain ⟨t', ht', -, hreality'⟩ := inForce_of_reads (tlsSection_stripped on) (hread'.tls use uses)
    obtain rfl : t = t' := Option.some.inj (ht.symm.trans ht')
    rw [allowedReality?, if_pos allowed] at hreality hreality'
    exact beside ((reality?_stripped null).symm.trans (hreality'.trans (hreality.symm.trans (reality?_of_null null))))
  | hosts chosen name network websocket settings held null given =>
    obtain ⟨t, ht, hhosts⟩ := hosts_of_reads network websocket held (hread.transport chosen)
    have network' : text? p (Json.stripped raw) "network" = .ok (some name) :=
      (text?_thinned (Json.thinned_stripped raw) _).trans network
    obtain ⟨t', ht', hhosts'⟩ := hosts_of_reads network' websocket (object_stripped held) (hread'.transport chosen)
    obtain rfl : t = t' := Option.some.inj (ht.symm.trans ht')
    rw [websocketHost?_eq, null] at hhosts
    exact given ((hosts_stripped settings).symm.trans (hhosts'.trans hhosts.symm))

end Protocol

namespace Params

/-- In the raw parameters of a protocol named in any letter case, a `null` hides a value. -/
def Hides (protocol : String) (raw : JsonFields) : Prop :=
  ∃ p, Protocol.ofAnyCase? protocol = some p ∧ p.Hides raw

/-- It does not matter which of the fields that are `null` are there, in objects at any depth. -/
def NullsDoNotMatter (protocol : String) (raw : JsonFields) : Prop :=
  ∀ raw', Thinned (.obj raw) (.obj raw') → parse protocol raw' = parse protocol raw

/-- **Where a `null` means the same as nothing.** Unless a `null` hides a value, any fields that are `null`
can be removed and the same parameters are accepted, or the same error is given. Of raw parameters that are
accepted this is exact. -/
theorem parse_thinned_iff (protocol : String) (raw : JsonFields) :
    (¬Hides protocol raw → NullsDoNotMatter protocol raw) ∧
    ((∃ params, parse protocol raw = .ok params) → (NullsDoNotMatter protocol raw ↔ ¬Hides protocol raw)) := by
  have hkept : ¬Hides protocol raw → NullsDoNotMatter protocol raw := by
    intro hides raw' h
    unfold parse
    cases hp : Protocol.ofAnyCase? protocol with
    | none => rfl
    | some p => exact Protocol.accept_of_not_hides (fun hp' => hides ⟨p, hp, hp'⟩) h
  refine ⟨hkept, fun ⟨params, hparse⟩ => ⟨fun hnulls ⟨p, hp, hides⟩ => ?_, hkept⟩⟩
  have hstripped := hnulls _ (Json.thinned_stripped raw)
  rw [hparse] at hstripped
  unfold parse at hparse hstripped
  rw [hp] at hparse hstripped
  exact Protocol.accept_stripped_ne hparse hides hstripped

/-- Vless parameters with a `null` in each kind of place, behind none of which a value stands. -/
def idleNulls : JsonFields :=
  [("uuid", .str "aaaaaaaa-0000-4000-8000-000000000001"), ("flow", .null), ("network", .str "ws"),
   ("tls", .obj [("alpn", .null), ("reality", .null), ("utls", .obj [("fingerprint", .null)])]),
   ("network_settings", .obj [("headers", .obj [("Host", .null)])])]

theorem parse_thinned_iff_idleNulls : ¬Hides "VLESS" idleNulls ∧ NullsDoNotMatter "VLESS" idleNulls := by
  have hides : ¬Hides "VLESS" idleNulls := by
    rintro ⟨p, hp, hides⟩
    obtain rfl : Protocol.vless = p := Option.some.inj hp
    cases hides with
    | alpn use uses tls on null beside => exact beside rfl
    | reality use uses tls on allowed null beside => exact beside rfl
    | hosts chosen name network websocket settings held null given =>
      obtain rfl : [("headers", Json.obj [("Host", .null)])] = settings := Except.ok.inj held
      exact given rfl
  have hparse : parse "VLESS" idleNulls = .ok (.vless
      { uuid := "aaaaaaaa-0000-4000-8000-000000000001", flow := "", encryption := "none", packetEncoding := "xudp"
        tls := some { utls := some ⟨true, "chrome"⟩ }, transport := some { network := .ws, path := "/" } }) := by rfl
  exact ⟨hides, ((parse_thinned_iff "VLESS" idleNulls).2 ⟨_, hparse⟩).2 hides⟩

/-- Trojan parameters with the protocols of TLS beside its settings. -/
def besideTls (tls : JsonFields) : JsonFields :=
  [("password", .str "secret"), ("alpn", .str "h2"), ("tls", .obj tls)]

theorem parse_null_alpn :
    Thinned (.obj (besideTls [("alpn", .null)])) (.obj (besideTls [])) ∧
    parse "trojan" (besideTls [("alpn", .null)]) =
      .ok (.trojan { password := "secret", tls := { alpn := [] }, transport := none }) ∧
    parse "trojan" (besideTls []) =
      .ok (.trojan { password := "secret", tls := { alpn := ["h2"] }, transport := none }) :=
  ⟨Json.thinned_stripped (besideTls [("alpn", .null)]), rfl, rfl⟩

end Params

end ProxyFleet

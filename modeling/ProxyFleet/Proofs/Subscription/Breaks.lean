import ProxyFleet.Proofs.Subscription.Document
import ProxyFleet.Proofs.Subscription.LinkParts
import ProxyFleet.Proofs.Text.Lines

/-!
# Line breaks in lines of servers

In Surge, Surfboard, Quantumult X and Loon a server is one line, into which texts are put as they are. What
was checked when a node was added, what is chosen from lists, numbers and the credential of a user have no
line break in them. The other texts are free, and a line has a line break exactly if the name of the server
or one of these has.

* `not_anyBroken_checkedTexts` : the texts of parameters that are not free;
* `Server.Checked` : a server in which only free texts can have a line break;
* `Surge.freeTexts`, `QuantumultX.freeTexts`, `Loon.freeTexts` : the free texts of parameters that a line has;
* `Surge.broken_line_iff`, `QuantumultX.broken_line_iff`, `Loon.broken_line_iff` : when a line has a line
  break.
-/

namespace ProxyFleet.Subscription

set_option autoImplicit false

open Text (Broken AnyBroken)

/-! ## Texts that cannot have a line break -/

theorem not_broken_of_isUuid {uuid : String} (h : Text.isUuid uuid = true) : ¬Broken uuid := by
  rw [← ShareLink.percentEncode_uuid h]
  exact ShareLink.notMem_percentEncode (by decide) uuid

theorem not_broken_of_decode? {s : String} {bytes : List UInt8} (h : Base64.standard.decode? s.toList = some bytes) :
    ¬Broken s := by
  intro hbreak
  have hunknown : ¬Base64.standard.Known '\n' := by decide
  exact hunknown (Base64.known_of_decode?_eq_some h '\n' hbreak)

theorem not_broken_of_isHost {host : String} (h : Net.isHost host = true) : ¬Broken host :=
  ShareLink.notMem_host h (by decide)

theorem not_broken_authority {host : String} (h : Net.isHost host = true) (port : Nat) :
    ¬Broken (Net.authority host port) :=
  ShareLink.delimiter_newline.notMem_authority h port

theorem not_broken_repr (n : Nat) : ¬Broken (toString n) := by
  intro hbreak
  have hdigit : '\n'.isDigit = true := isDigit_of_mem_toDigits (n := n) (by simpa [Broken] using hbreak)
  exact absurd hdigit (by decide)

@[simp] theorem not_broken_toString_uint16 (n : UInt16) : ¬Broken (toString n) := not_broken_repr n.toNat

@[simp] theorem not_broken_toString_uint32 (n : UInt32) : ¬Broken (toString n) := not_broken_repr n.toNat

@[simp] theorem not_broken_toString_bool (b : Bool) : ¬Broken (toString b) := by
  revert b
  decide

/-- The password of a client has no line break in it, whatever the method. -/
theorem not_broken_clientPassword {p : Shadowsocks} (hp : (Params.shadowsocks p).Normal) {uuid : String}
    (huuid : Text.isUuid uuid = true) : ¬Broken (UserKey.clientPassword p.method p.password uuid) := by
  by_cases haead : UserKey.isAead2022 p.method = true
  · have hjoined := UserKey.joined_clientPassword hp.offerable hp.keyFits haead uuid
    obtain ⟨size, bytes, hsize, hsecret, -⟩ := hjoined.length
    obtain ⟨_, hkey, -⟩ := hp.keyFits size hsize
    have hcolon : ¬Broken ":" := by decide
    rw [hjoined.password_eq, Text.broken_append, Text.broken_append, or_assoc]
    simp only [not_broken_of_decode? hkey, hcolon, not_broken_of_decode? hsecret, or_self, not_false_eq_true]
  · rw [(UserKey.agentSecret_eq_clientPassword hp.1 (Bool.eq_false_iff.2 haead) p.password uuid).2]
    exact not_broken_of_isUuid huuid

/-- The texts of parameters that a user's credential replaces, or that are chosen from lists. -/
def checkedTexts : Params → List String
  | .shadowsocks p => [p.method, p.password]
  | .vless p => [p.uuid, p.flow]
  | .vmess p => [p.uuid, p.security]
  | p => p.credentials

theorem not_anyBroken_checkedTexts {p : Params} (hp : p.Normal) {uuid : String} (huuid : Text.isUuid uuid = true) :
    ¬AnyBroken (checkedTexts (p.withCredential uuid (passwordFor p uuid))) := by
  have hcredential := not_broken_of_isUuid huuid
  cases p with
  | shadowsocks p =>
    have hmethods : ∀ method ∈ shadowsocksMethods, ¬Broken method := by decide
    simp [checkedTexts, Params.withCredential, passwordFor, hmethods _ hp.1, not_broken_clientPassword hp huuid]
  | vless p =>
    have hflows : ∀ flow ∈ vlessFlows, ¬Broken flow := by decide
    simp [checkedTexts, Params.withCredential, hcredential, hflows _ hp.2.1]
  | vmess p =>
    have hsecurities : ∀ security ∈ vmessSecurities, ¬Broken security := by decide
    simp [checkedTexts, Params.withCredential, hcredential, hsecurities _ hp.2.1]
  | _ => simp [checkedTexts, Params.credentials, Params.withCredential, passwordFor, hcredential]

/-- What is known of a server that could be added, once it holds a user's credential. -/
structure Server.Checked (s : Server) : Prop where
  host : Net.isHost s.host = true
  params : ¬AnyBroken (checkedTexts s.params)

/-! ## Texts that nothing restricts -/

/-- The server name of TLS settings. -/
def tlsTexts (tls : Option Tls) : List String := (tls.bind (·.serverName)).toList

/-- The path and the host of a transport. -/
def transportTexts (transport : Option Transport) : List String :=
  (transport.bind (·.path)).toList ++ (transport.bind (·.firstHost?)).toList

/-- The plugin options of shadowsocks that are told of. -/
def obfsTexts (p : Shadowsocks) : List String :=
  match p.option? "obfs" with
  | some obfs => obfs :: (p.option? "obfs-host").toList
  | none => []

/-! ## Surge and Surfboard -/

namespace Surge

/-- The texts of parameters that a line has and that nothing restricts. -/
def freeTexts (params : Params) : List String :=
  match params with
  | .shadowsocks p => obfsTexts p
  | .vmess p => tlsTexts params.tls? ++ transportTexts p.transport
  | .trojan p => tlsTexts (some p.tls) ++ transportTexts p.transport
  | .hysteria2 p => tlsTexts (some p.tls)
  | .tuic p => tlsTexts (some p.tls) ++ p.tls.alpn
  | _ => []

theorem anyBroken_tlsFields (tls : Tls) : AnyBroken (tlsFields tls) ↔ AnyBroken (tlsTexts (some tls)) := by
  unfold tlsFields tlsTexts
  simp only [Option.bind_some]
  cases tls.serverName with
  | _ => cases tls.insecure with
    | _ => simp +decide

theorem anyBroken_transportFields {transport : Option Transport} {fields : List String}
    (h : transportFields? transport = some fields) : AnyBroken fields ↔ AnyBroken (transportTexts transport) := by
  unfold transportFields? at h
  split at h
  · obtain rfl := Option.some.inj h
    simp [transportTexts]
  · next t =>
    split_ifs at h
    obtain rfl := Option.some.inj h
    unfold transportTexts
    simp only [Option.bind_some]
    cases t.path with
    | _ => cases t.firstHost? with
      | _ => simp +decide

theorem anyBroken_obfsFields {p : Shadowsocks} {fields : List String} (h : obfsFields? p = some fields) :
    AnyBroken fields ↔ AnyBroken (obfsTexts p) := by
  unfold obfsFields? at h
  unfold obfsTexts
  cases hobfs : p.option? "obfs" with
  | some obfs =>
    rw [hobfs] at h
    obtain rfl := Option.some.inj h
    cases p.option? "obfs-host" with
    | _ => simp +decide
  | none =>
    rw [hobfs] at h
    split_ifs at h
    obtain rfl := Option.some.inj h
    simp

variable {client : Client}

theorem anyBroken_proxyFields {s : Server} (hchecked : ¬AnyBroken (checkedTexts s.params)) {kind : String}
    {fields : List String} (h : proxyFields? client s = some (kind, fields)) :
    AnyBroken (kind :: fields) ↔ AnyBroken (freeTexts s.params) := by
  unfold freeTexts
  cases hparams : s.params with
  | shadowsocks p =>
    simp only [proxyFields?, hparams] at h
    split_ifs at h
    obtain ⟨obfs, hobfs, heq⟩ := Option.map_eq_some_iff.1 h
    obtain ⟨rfl, rfl⟩ := Prod.mk.inj heq
    simp_all +decide [checkedTexts, anyBroken_obfsFields hobfs]
  | vmess p =>
    simp only [proxyFields?, hparams] at h
    obtain ⟨transport, htransport, heq⟩ := Option.map_eq_some_iff.1 h
    obtain ⟨rfl, rfl⟩ := Prod.mk.inj heq
    have haead : ¬AnyBroken (if p.alterId = 0 then ["vmess-aead=true"] else []) := by
      split_ifs
      all_goals simp +decide
    cases htls : (Params.vmess p).tls? with
    | none => simp_all +decide [checkedTexts, anyBroken_transportFields htransport, tlsTexts]
    | some tls => simp_all +decide [checkedTexts, anyBroken_transportFields htransport, anyBroken_tlsFields]
  | trojan p =>
    simp only [proxyFields?, hparams] at h
    obtain ⟨transport, htransport, heq⟩ := Option.map_eq_some_iff.1 h
    obtain ⟨rfl, rfl⟩ := Prod.mk.inj heq
    simp_all +decide [checkedTexts, Params.credentials, anyBroken_transportFields htransport, anyBroken_tlsFields]
  | hysteria2 p =>
    simp only [proxyFields?, hparams] at h
    split_ifs at h
    obtain ⟨rfl, rfl⟩ := Prod.mk.inj (Option.some.inj h)
    cases hdown : p.downMbps with
    | _ => simp_all +decide [checkedTexts, Params.credentials, anyBroken_tlsFields]
  | tuic p =>
    simp only [proxyFields?, hparams] at h
    split_ifs at h
    all_goals
      obtain ⟨rfl, rfl⟩ := Prod.mk.inj (Option.some.inj h)
      simp_all +decide [checkedTexts, Params.credentials, anyBroken_tlsFields, Text.broken_intercalate]
  | _ => simp [proxyFields?, hparams] at h

theorem broken_line_iff {s : Server} (hs : s.Checked) {line : String} (h : line? client s = some line) :
    Broken line ↔ AnyBroken (s.name :: freeTexts s.params) := by
  obtain ⟨⟨kind, fields⟩, hfields, rfl⟩ := Option.map_eq_some_iff.1 h
  rw [Text.anyBroken_cons, ← anyBroken_proxyFields hs.params hfields, Text.broken_intercalate (by decide)]
  simp +decide [not_broken_of_isHost hs.host, or_assoc]

end Surge

/-! ## Quantumult X -/

namespace QuantumultX

/-- The texts of TLS and transport that nothing restricts: over a websocket the host that it asks for stands
in place of the server name. -/
def streamTexts (tls : Option Tls) : Option Transport → List String
  | none => tlsTexts tls
  | some t =>
    if t.network = .ws then (t.firstHost?.or (tls.bind (·.serverName))).toList ++ t.path.toList else tlsTexts tls

/-- The texts of parameters that a line has and that nothing restricts. -/
def freeTexts (params : Params) : List String :=
  match params with
  | .shadowsocks p => obfsTexts p
  | .vless p => streamTexts params.tls? p.transport
  | .vmess p => streamTexts params.tls? p.transport
  | .trojan p => streamTexts (some p.tls) p.transport
  | _ => []

theorem anyBroken_obfsFields {p : Shadowsocks} {fields : List String} (h : obfsFields? p = some fields) :
    AnyBroken fields ↔ AnyBroken (obfsTexts p) := Surge.anyBroken_obfsFields h

@[simp] theorem not_broken_verification (tls : Tls) : ¬Broken (verification tls) := by
  unfold verification
  cases tls.insecure with
  | _ => decide

theorem anyBroken_overTls (tls : Option Tls) :
    AnyBroken ((if tls.isSome then
      "obfs=over-tls" :: ((tls.bind (·.serverName)).map fun sni => s!"obfs-host={sni}").toList else []) ++
        (tls.map verification).toList) ↔ AnyBroken (tlsTexts tls) := by
  unfold tlsTexts
  cases tls with
  | none => simp
  | some tls =>
    simp only [Option.bind_some]
    cases tls.serverName with
    | _ => simp +decide

theorem anyBroken_streamFields {tls : Option Tls} {transport : Option Transport} {fields : List String}
    (h : streamFields? tls transport = some fields) : AnyBroken fields ↔ AnyBroken (streamTexts tls transport) := by
  cases transport with
  | none =>
    obtain rfl := Option.some.inj h
    exact anyBroken_overTls tls
  | some t =>
    cases hnetwork : t.network with
    | tcp =>
      simp only [streamFields?, hnetwork] at h
      obtain rfl := Option.some.inj h
      rw [anyBroken_overTls, streamTexts, hnetwork, if_neg (by decide)]
    | ws =>
      simp only [streamFields?, hnetwork] at h
      obtain rfl := Option.some.inj h
      rw [streamTexts, if_pos hnetwork]
      have hobfs : ¬Broken (if tls.isSome then "obfs=wss" else "obfs=ws") := by
        split_ifs
        all_goals decide
      have hcheck : ¬AnyBroken (tls.map verification).toList := by
        cases tls with
        | _ => simp
      cases t.firstHost?.or (tls.bind (·.serverName)) with
      | _ => cases t.path with
        | _ => simp +decide [hobfs, hcheck]
    | h2 | grpc | quic => simp [streamFields?, hnetwork] at h

theorem anyBroken_serverFields {s : Server} (hchecked : ¬AnyBroken (checkedTexts s.params)) {kind : String}
    {fields : List String} (h : serverFields? s = some (kind, fields)) :
    AnyBroken (kind :: fields) ↔ AnyBroken (freeTexts s.params) := by
  unfold freeTexts
  cases hparams : s.params with
  | shadowsocks p =>
    simp only [serverFields?, hparams] at h
    obtain ⟨obfs, hobfs, heq⟩ := Option.map_eq_some_iff.1 h
    obtain ⟨rfl, rfl⟩ := Prod.mk.inj heq
    simp_all +decide [checkedTexts, anyBroken_obfsFields hobfs]
  | vmess p =>
    simp only [serverFields?, hparams] at h
    obtain ⟨stream, hstream, heq⟩ := Option.map_eq_some_iff.1 h
    obtain ⟨rfl, rfl⟩ := Prod.mk.inj heq
    have haead : ¬AnyBroken (if p.alterId = 0 then ["aead=true"] else []) := by
      split_ifs
      all_goals simp +decide
    simp_all +decide [checkedTexts, anyBroken_streamFields hstream]
  | vless p =>
    simp only [serverFields?, hparams] at h
    split_ifs at h
    obtain ⟨stream, hstream, heq⟩ := Option.map_eq_some_iff.1 h
    obtain ⟨rfl, rfl⟩ := Prod.mk.inj heq
    simp_all +decide [checkedTexts, anyBroken_streamFields hstream]
  | trojan p =>
    simp only [serverFields?, hparams] at h
    obtain ⟨stream, hstream, heq⟩ := Option.map_eq_some_iff.1 h
    obtain ⟨rfl, rfl⟩ := Prod.mk.inj heq
    have htexts : AnyBroken stream ↔ AnyBroken (streamTexts (some p.tls) p.transport) := by
      cases htransport : p.transport with
      | none =>
        rw [htransport] at hstream
        obtain rfl := Option.some.inj hstream
        simp only [streamTexts, tlsTexts, Option.bind_some]
        cases p.tls.serverName with
        | _ => simp +decide
      | some t =>
        rw [htransport] at hstream
        exact anyBroken_streamFields hstream
    simp_all +decide [checkedTexts, Params.credentials]
  | _ => simp [serverFields?, hparams] at h

theorem broken_line_iff {s : Server} (hs : s.Checked) {line : String} (h : line? s = some line) :
    Broken line ↔ AnyBroken (s.name :: freeTexts s.params) := by
  obtain ⟨⟨kind, fields⟩, hfields, rfl⟩ := Option.map_eq_some_iff.1 h
  rw [Text.anyBroken_cons, ← anyBroken_serverFields hs.params hfields, Text.broken_intercalate (by decide), or_comm]
  simp +decide [not_broken_authority hs.host, or_assoc]

end QuantumultX

/-! ## Loon -/

namespace Loon

/-- The texts of a transport that nothing restricts; over tcp there are none. -/
def streamTexts : Option Transport → List String
  | none => []
  | some t => if t.network = .tcp then [] else transportTexts (some t)

/-- The texts of REALITY settings in force. -/
def realityTexts (tls : Option Tls) : List String :=
  ((tls.bind Tls.reality?).map fun r => [r.publicKey, r.shortId]).getD []

/-- The texts of parameters that a line has and that nothing restricts. -/
def freeTexts (params : Params) : List String :=
  match params with
  | .vmess p => streamTexts p.transport ++ tlsTexts params.tls?
  | .vless p => streamTexts p.transport ++ tlsTexts params.tls? ++ realityTexts params.tls?
  | .trojan p => streamTexts p.transport ++ tlsTexts (some p.tls)
  | .hysteria2 p => tlsTexts (some p.tls) ++ p.obfsPassword.toList
  | _ => []

@[simp] theorem broken_quoted (s : String) : Broken (quoted s) ↔ Broken s := by
  unfold quoted
  simp +decide

theorem anyBroken_tlsFields (tls : Tls) : AnyBroken (tlsFields tls) ↔ AnyBroken (tlsTexts (some tls)) := by
  unfold tlsFields tlsTexts
  simp only [Option.bind_some]
  cases tls.serverName with
  | _ => simp +decide

theorem anyBroken_optionalTlsFields (tls : Option Tls) :
    AnyBroken (optionalTlsFields tls) ↔ AnyBroken (tlsTexts tls) := by
  cases tls with
  | none => simp [optionalTlsFields, tlsTexts]
  | some tls => simp +decide [optionalTlsFields, anyBroken_tlsFields]

theorem anyBroken_realityFields (tls : Option Tls) :
    AnyBroken (((tls.bind Tls.reality?).map realityFields).getD []) ↔ AnyBroken (realityTexts tls) := by
  unfold realityTexts
  cases tls.bind Tls.reality? with
  | none => simp
  | some r =>
    by_cases hid : r.shortId = ""
    · simp +decide [realityFields, hid]
    · simp +decide [realityFields, hid]

theorem anyBroken_pathFields {name : String} (hname : ¬Broken name) (t : Transport) :
    AnyBroken (pathFields name t) ↔ AnyBroken (transportTexts (some t)) := by
  unfold pathFields transportTexts
  simp only [Option.bind_some]
  cases t.path with
  | _ => cases t.firstHost? with
    | _ => simp +decide [hname]

theorem anyBroken_transportFields {t : Transport} {fields : List String} (h : transportFields? t = some fields) :
    AnyBroken fields ↔ AnyBroken (streamTexts (some t)) := by
  cases hnetwork : t.network with
  | tcp =>
    simp only [transportFields?, hnetwork] at h
    obtain rfl := Option.some.inj h
    simp +decide [streamTexts, hnetwork]
  | ws =>
    simp only [transportFields?, hnetwork] at h
    obtain rfl := Option.some.inj h
    have hname : ¬Broken "ws" := by decide
    simp [streamTexts, hnetwork, anyBroken_pathFields hname]
  | h2 =>
    simp only [transportFields?, hnetwork] at h
    obtain rfl := Option.some.inj h
    have hname : ¬Broken "http" := by decide
    simp [streamTexts, hnetwork, anyBroken_pathFields hname]
  | grpc | quic => simp [transportFields?, hnetwork] at h

theorem anyBroken_streamFields {transport : Option Transport} {fields : List String}
    (h : streamFields? transport = some fields) : AnyBroken fields ↔ AnyBroken (streamTexts transport) := by
  cases transport with
  | none =>
    obtain rfl := Option.some.inj h
    simp +decide [streamTexts]
  | some t => exact anyBroken_transportFields h

theorem anyBroken_serverFields {s : Server} (hchecked : ¬AnyBroken (checkedTexts s.params)) {kind : String}
    {fields : List String} (h : serverFields? s = some (kind, fields)) :
    AnyBroken (kind :: fields) ↔ AnyBroken (freeTexts s.params) := by
  unfold freeTexts
  cases hparams : s.params with
  | shadowsocks p =>
    simp only [serverFields?, hparams] at h
    split_ifs at h
    obtain ⟨rfl, rfl⟩ := Prod.mk.inj (Option.some.inj h)
    simp_all +decide [checkedTexts]
  | vmess p =>
    simp only [serverFields?, hparams] at h
    obtain ⟨stream, hstream, heq⟩ := Option.map_eq_some_iff.1 h
    obtain ⟨rfl, rfl⟩ := Prod.mk.inj heq
    simp_all +decide [checkedTexts, anyBroken_streamFields hstream, anyBroken_optionalTlsFields]
  | vless p =>
    simp only [serverFields?, hparams] at h
    obtain ⟨stream, hstream, heq⟩ := Option.map_eq_some_iff.1 h
    obtain ⟨rfl, rfl⟩ := Prod.mk.inj heq
    have hflow : ¬AnyBroken (if p.flow.isEmpty then [] else [s!"flow={p.flow}"]) := by
      split_ifs
      all_goals simp_all +decide [checkedTexts]
    simp_all +decide [checkedTexts, anyBroken_streamFields hstream, anyBroken_optionalTlsFields,
      anyBroken_realityFields, -Option.map_bind]
  | trojan p =>
    simp only [serverFields?, hparams] at h
    obtain ⟨stream, hstream, heq⟩ := Option.map_eq_some_iff.1 h
    obtain ⟨rfl, rfl⟩ := Prod.mk.inj heq
    have htexts : AnyBroken stream ↔ AnyBroken (streamTexts p.transport) := by
      cases htransport : p.transport with
      | none =>
        rw [htransport] at hstream
        obtain rfl := Option.some.inj hstream
        rfl
      | some t =>
        rw [htransport] at hstream
        exact anyBroken_transportFields hstream
    simp_all +decide [checkedTexts, Params.credentials, anyBroken_tlsFields]
  | hysteria2 p =>
    simp only [serverFields?, hparams] at h
    obtain ⟨rfl, rfl⟩ := Prod.mk.inj (Option.some.inj h)
    cases hkey : p.obfsPassword with
    | _ => cases hdown : p.downMbps with
      | _ => simp_all +decide [checkedTexts, Params.credentials, anyBroken_tlsFields]
  | _ => simp [serverFields?, hparams] at h

theorem broken_line_iff {s : Server} (hs : s.Checked) {line : String} (h : line? s = some line) :
    Broken line ↔ AnyBroken (s.name :: freeTexts s.params) := by
  obtain ⟨⟨kind, fields⟩, hfields, rfl⟩ := Option.map_eq_some_iff.1 h
  rw [Text.anyBroken_cons, ← anyBroken_serverFields hs.params hfields, Text.broken_intercalate (by decide)]
  simp +decide [not_broken_of_isHost hs.host, or_assoc]

end Loon

end ProxyFleet.Subscription

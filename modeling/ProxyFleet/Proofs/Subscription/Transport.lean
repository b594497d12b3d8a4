import ProxyFleet.Proofs.Engine.Written
import ProxyFleet.Proofs.Subscription.Lines
import ProxyFleet.Proofs.Subscription.Links

/-!
# Which formats tell of a transport

A server that has a transport cannot be reached over a plain stream. A format that cannot express the
transport has to leave the server out.

* `Clash.tells_listing_iff` : Clash profiles;
* `outbound_ne` : engine documents;
* `ShareLink.link_ne` : share links;
* `tells_entry_iff` : all formats. They tell of a transport but for the cases of `Hides`.
-/

namespace ProxyFleet.Subscription

set_option autoImplicit false

variable {t : Transport}

/-! ## Profiles -/

namespace Clash

variable (dialect : Dialect)

theorem transportFields_eq_nil_iff : transportFields t = [] ↔ t.network = .quic := by
  unfold transportFields
  cases t.network with
  | _ => simp

/-- An entry is the one without the transport, and what there is to say of the transport after it. -/
theorem listing?_eq_append {s : Server} (h : s.params.transport? = some t) {fields : Yaml.Fields}
    (hfields : listing? dialect s = some fields) :
    ∃ plain, listing? dialect s.plain = some plain ∧
      fields = plain ++ transportFields t := by
  obtain ⟨name, host, port, params⟩ := s
  cases params with
  | trojan p =>
    obtain ⟨password, tls, transport⟩ := p
    obtain rfl : transport = some t := h
    rw [listing?_of_shared dialect rfl] at hfields
    dsimp only [sharedListing?] at hfields
    split_ifs at hfields
    obtain rfl := Option.some.inj hfields
    refine ⟨_, listing?_of_shared dialect rfl, ?_⟩
    exact congrArg (· ++ transportFields t) (List.append_nil _).symm
  | vless p =>
    obtain ⟨uuid, flow, encryption, packetEncoding, tls, transport⟩ := p
    obtain rfl : transport = some t := h
    cases dialect with
    | plain => cases hfields
    | extended =>
      obtain rfl := Option.some.inj hfields
      exact ⟨_, rfl, congrArg (· ++ transportFields t) (List.append_nil _).symm⟩
  | vmess p =>
    obtain ⟨uuid, alterId, security, tls, transport⟩ := p
    obtain rfl : transport = some t := h
    rw [listing?_of_shared dialect rfl] at hfields
    dsimp only [sharedListing?] at hfields
    split_ifs at hfields
    obtain rfl := Option.some.inj hfields
    refine ⟨_, listing?_of_shared dialect rfl, ?_⟩
    exact congrArg (· ++ transportFields t) (List.append_nil _).symm
  | _ => simp [Params.transport?] at h

/-- A transport that an entry says nothing of is refused, but by one protocol. -/
theorem listing?_of_quic {s : Server} (h : s.params.transport? = some t) (hquic : t.network = .quic)
    (hshown : ¬Hides dialect.format s.params t.network) : listing? dialect s = none := by
  obtain ⟨name, host, port, params⟩ := s
  cases params with
  | trojan p =>
    obtain ⟨password, tls, transport⟩ := p
    obtain rfl : transport = some t := h
    rw [listing?_of_shared dialect rfl]
    dsimp only [sharedListing?]
    simp [hquic]
  | vless p =>
    cases dialect with
    | plain => rfl
    | extended => simp [Hides, Dialect.format, hquic] at hshown
  | vmess p =>
    obtain ⟨uuid, alterId, security, tls, transport⟩ := p
    obtain rfl : transport = some t := h
    rw [listing?_of_shared dialect rfl]
    dsimp only [sharedListing?]
    simp [hquic]
  | _ => simp [Params.transport?] at h

theorem hides_iff {s : Server} :
    Hides dialect.format s.params t.network ↔
      dialect = .extended ∧ s.params.protocol = .vless ∧ t.network = .quic := by
  cases dialect with
  | plain => simp [Hides, Dialect.format]
  | extended =>
    cases hp : s.params with
    | vless p =>
      cases t.network with
      | _ => simp [Hides, Dialect.format, Params.protocol]
    | _ => simp [Hides, Dialect.format, Params.protocol]

theorem exists_listing_of_vless {s : Server} (h : s.params.protocol = .vless) :
    ∃ fields, listing? .extended s = some fields := by
  obtain ⟨name, host, port, params⟩ := s
  cases params with
  | vless p => exact ⟨_, rfl⟩
  | _ => cases h

theorem tells_listing_iff (s : Server) (h : s.params.transport? = some t) :
    Tells (listing? dialect s) (listing? dialect s.plain) ↔
      ¬Hides dialect.format s.params t.network := by
  constructor
  · -- the one protocol that says nothing of QUIC, and does not refuse it
    intro htells hhides
    obtain ⟨rfl, hprotocol, hquic⟩ := (hides_iff dialect).1 hhides
    obtain ⟨fields, hfields⟩ := exists_listing_of_vless hprotocol
    obtain ⟨plain, hplain, rfl⟩ := listing?_eq_append .extended h hfields
    rw [transportFields_eq_nil_iff.2 hquic, List.append_nil] at hfields
    simp [Tells, hfields, hplain] at htells
  · intro hshown
    cases hfields : listing? dialect s with
    | none => exact .inl rfl
    | some fields =>
      obtain ⟨plain, hplain, rfl⟩ := listing?_eq_append dialect h hfields
      have hne : transportFields t ≠ [] := fun hnil =>
        absurd (listing?_of_quic dialect h (transportFields_eq_nil_iff.1 hnil) hshown) (by simp [hfields])
      right
      rw [hplain]
      simpa using hne

end Clash

/-! ## Documents -/

theorem outbound_ne (s : Server) (h : s.params.transport? = some t) :
    s.toEntry.toOutbound.toJson ≠ s.plain.toEntry.toOutbound.toJson := by
  intro hjson
  -- what was written is read, so the outbounds are one if they are written alike
  have hread : ∀ s : Server,
      Engine.Outbound.decoder s.toEntry.toOutbound.toJson.sorted = .ok s.toEntry.toOutbound := fun s =>
    Engine.Outbound.decoder_sorted (Engine.settled_toOutbound s.params s.name s.host s.port).orderly
  have hsame := hread s
  rw [hjson, hread] at hsame
  have htransport := congrArg Engine.Outbound.transport (Except.ok.inj hsame)
  have hplain : s.params.withoutTransport.transport? = none := by
    cases s.params with
    | _ => rfl
  simp only [Server.plain, Server.toEntry, Engine.NodeEntry.toOutbound, Engine.transport_toOutbound, h,
    hplain] at htransport
  simp at htransport

/-! ## Share links -/

namespace ShareLink

/-- A query tells of a transport by its network, or, where it is `tcp`, by the kind of its header. -/
theorem queryText_ne (ht : t.Normal) (tls : Option Tls) (front rest : Query) :
    queryText (front ++ streamQuery tls (some t) ++ rest) ≠
      queryText (front ++ streamQuery tls none ++ rest) := by
  have hne : ∀ transport, front ++ streamQuery tls transport ++ rest ≠ [] := fun transport => by
    simp [streamQuery]
  rw [queryText_of_ne_nil (hne _), queryText_of_ne_nil (hne _), ne_eq, String.append_right_inj]
  by_cases htcp : t.network = .tcp
  · refine Text.intercalate_ne_of_width (by simp [streamQuery]) (by simp [streamQuery]) ?_
    have hsep : 0 < "&".length := by decide
    simp only [streamQuery, networkOf, transportQuery, htcp, ht htcp, setting?, List.map_append, List.map_cons,
      List.map_nil, Text.width_append, Text.width_cons, Text.width_nil, Option.map_some, Option.map_none,
      Option.getD_some, Option.getD_none, Option.toList_some, reduceCtorEq, if_false]
    omega
  · have hapart : ∀ network : Network, network ≠ .tcp →
        Text.Apart (piece ("type", if network = .h2 then "http" else network.name)) (piece ("type", "tcp")) := by
      intro network hnetwork
      cases network with
      | tcp => exact absurd rfl hnetwork
      | _ => decide +kernel
    simp only [List.append_assoc, List.map_append]
    exact Text.intercalate_ne_of_apart (hapart t.network htcp) _ _ _

theorem link_ne (s : Server) (h : s.params.transport? = some t) (ht : t.Normal) :
    link s ≠ link s.plain := by
  obtain ⟨name, host, port, params⟩ := s
  cases params with
  | trojan p =>
    obtain ⟨password, tls, transport⟩ := p
    obtain rfl : transport = some t := h
    have hquery := queryText_ne ht (some tls) [] []
    simp only [link, queryOf, Server.plain, Params.withoutTransport, Params.protocol, userInfo]
    simpa [String.append_left_inj, String.append_right_inj] using hquery
  | vless p =>
    obtain ⟨uuid, flow, encryption, packetEncoding, tls, transport⟩ := p
    obtain rfl : transport = some t := h
    have hquery := queryText_ne ht (tls.filter (·.enabled)) [("encryption", encryption)]
      (if flow.isEmpty then [] else [("flow", flow)])
    simp only [link, queryOf, Server.plain, Params.withoutTransport, Params.protocol, userInfo, Params.tls?,
      Params.storedTls?]
    simpa [String.append_left_inj, String.append_right_inj] using hquery
  | vmess p =>
    obtain ⟨uuid, alterId, security, tls, transport⟩ := p
    obtain rfl : transport = some t := h
    intro hlink
    have hread : ∀ transport, read? (link ⟨name, host, port, .vmess ⟨uuid, alterId, security, tls, transport⟩⟩) =
        some (readingOf ⟨name, host, port, .vmess ⟨uuid, alterId, security, tls, transport⟩⟩) := fun _ =>
      read?_link_of_object rfl
    have hsame := hread (some t)
    rw [hlink] at hsame
    have hsettings := congrArg Reading.query (Option.some.inj ((hread none).symm.trans hsame))
    -- the two objects name different networks, or different headers
    cases hnetwork : t.network with
    | tcp => simp [readingOf, settingsOf, networkOf, hnetwork, ht hnetwork] at hsettings
    | _ => simp [readingOf, settingsOf, networkOf, hnetwork, Network.name] at hsettings
  | _ => simp [Params.transport?] at h

end ShareLink

/-! ## All formats -/

/-- **Which transports a format tells of.** Let a server have accepted parameters and a transport. Then it
is left out, or its entry differs from the one over a plain stream, unless the format is one that hides
this transport. -/
theorem tells_entry_iff {s : Server} (hs : s.Accepted) (ht : s.params.transport? = some t) (format : Format) :
    Tells (shown? format s) (shown? format s.plain) ↔ ¬Hides format s.params t.network := by
  have hlisting : Function.Injective Entry.listing := fun _ _ => Entry.listing.inj
  have hline : Function.Injective Entry.line := fun _ _ => Entry.line.inj
  cases format with
  | singBox =>
    refine iff_of_true (tells_some_iff.2 ?_) (by simp [Hides])
    exact fun heq => outbound_ne s ht (Entry.document.inj heq)
  | clash => exact (tells_map_iff hlisting).trans (Clash.tells_listing_iff .plain s ht)
  | clashMeta => exact (tells_map_iff hlisting).trans (Clash.tells_listing_iff .extended s ht)
  | surge => exact iff_of_true ((tells_map_iff hline).2 (Surge.tells_line .surge s ht)) (by simp [Hides])
  | surfboard =>
    exact iff_of_true ((tells_map_iff hline).2 (Surge.tells_line .surfboard s ht)) (by simp [Hides])
  | quantumultX => exact (tells_map_iff hline).trans (QuantumultX.tells_line_iff s ht)
  | loon => exact (tells_map_iff hline).trans (Loon.tells_line_iff s ht)
  | base64 =>
    refine iff_of_true (tells_some_iff.2 ?_) (by simp [Hides])
    exact fun heq => ShareLink.link_ne s ht (hs.normal_transport ht) (Entry.line.inj heq)

/-- A vless server over QUIC. -/
def sampleQuic : Server :=
  ⟨"a", "127.0.0.1", 443, .vless ⟨"b831381d-6324-4d53-ad4f-8cda48b30811", "", "none", "xudp", none,
    some { network := .quic, security := some "none" }⟩⟩

theorem accepted_sampleQuic : sampleQuic.Accepted := by
  have hparse : Params.parse "vless" [("uuid", .str "b831381d-6324-4d53-ad4f-8cda48b30811"),
      ("network", .str "quic")] = .ok sampleQuic.params := by rfl
  exact Server.accepted_of_parse hparse

theorem tells_entry_sampleQuic :
    sampleQuic.Accepted ∧
    sampleQuic.params.transport? = some { network := .quic, security := some "none" } ∧
    ∀ format, Tells (shown? format sampleQuic) (shown? format sampleQuic.plain) ↔
      ¬Hides format sampleQuic.params .quic :=
  ⟨accepted_sampleQuic, rfl, fun format => tells_entry_iff accepted_sampleQuic rfl format⟩

/-- In a profile of the extended dialect it looks as it would over a plain stream. -/
theorem hidden_entry_sampleQuic :
    sampleQuic.Accepted ∧ sampleQuic.params.transport? = some { network := .quic, security := some "none" } ∧
    ¬Tells (shown? .clashMeta sampleQuic) (shown? .clashMeta sampleQuic.plain) := by
  refine ⟨accepted_sampleQuic, rfl, ?_⟩
  rintro (hnone | hne)
  · cases hnone
  · exact hne rfl

end ProxyFleet.Subscription

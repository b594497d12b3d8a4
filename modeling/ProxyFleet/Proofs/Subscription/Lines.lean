import ProxyFleet.Proofs.Subscription.Entry
import ProxyFleet.Proofs.Text.Joined

/-!
# Transports in lines

In Surge, Surfboard, Quantumult X and Loon a server is one line of fields. The fields of the transport
stand between others that do not depend on it, so that two lines with different transports differ as
these fields do.

* `Spliced` : a line, by its transport;
* `Surge.tells_line` : a line of Surge tells of every transport;
* `Loon.tells_line_iff`, `QuantumultX.tells_line_iff` : which transports lines of the others tell of.
-/

namespace ProxyFleet.Subscription

set_option autoImplicit false

open Text (Apart width)

variable {t : Transport}

/-- A line has the fields of its transport, where these can be expressed, between the same others
whatever the transport is. -/
def Spliced (line? : Option Transport → Option String) (sep : String)
    (fields? : Option Transport → Option (List String)) : Prop :=
  ∃ front rest, front ≠ [] ∧ ∀ transport,
    line? transport = (fields? transport).map fun fields => sep.intercalate (front ++ fields ++ rest)

namespace Spliced

variable {line? : Option Transport → Option String} {sep : String}
  {fields? : Option Transport → Option (List String)} {fields plain : List String}

theorem not_tells (h : Spliced line? sep fields?) (ht : fields? (some t) = some fields)
    (hnone : fields? none = some fields) : ¬Tells (line? (some t)) (line? none) := by
  obtain ⟨front, rest, -, hline⟩ := h
  simp [Tells, hline, ht, hnone]

theorem tells_of_none (h : Spliced line? sep fields?) (ht : fields? (some t) = none) :
    Tells (line? (some t)) (line? none) := by
  obtain ⟨front, rest, -, hline⟩ := h
  exact .inl (by rw [hline, ht, Option.map_none])

theorem tells_of_width (h : Spliced line? sep fields?) (ht : fields? (some t) = some fields)
    (hnone : fields? none = some plain) (hwidth : width sep plain < width sep fields) :
    Tells (line? (some t)) (line? none) := by
  obtain ⟨front, rest, hfront, hline⟩ := h
  have hne : ∀ fields, front ++ fields ++ rest ≠ [] := by simp [hfront]
  right
  rw [hline, hline, ht, hnone, Option.map_some, Option.map_some, ne_eq, Option.some.injEq]
  refine Text.intercalate_ne_of_width (hne _) (hne _) ?_
  simp only [Text.width_append]
  omega

theorem tells_of_apart {a b : String} (h : Spliced line? sep fields?) (hab : Apart a b)
    (ht : fields? (some t) = some (a :: fields)) (hnone : fields? none = some (b :: plain)) :
    Tells (line? (some t)) (line? none) := by
  obtain ⟨front, rest, -, hline⟩ := h
  right
  rw [hline, hline, ht, hnone, Option.map_some, Option.map_some, ne_eq, Option.some.injEq, List.append_assoc,
    List.append_assoc]
  exact Text.intercalate_ne_of_apart hab front _ _

end Spliced

variable (name host : String) (port : UInt16)

namespace Surge

variable (client : Client)

theorem spliced_of_eq {params : Option Transport → Params}
    {fields? : Option Transport → Option (List String)}
    (kind : String) (before after : List String)
    (h : ∀ transport, proxyFields? client ⟨name, host, port, params transport⟩ =
      (fields? transport).map fun fields => (kind, before ++ fields ++ after)) :
    Spliced (fun transport => line? client ⟨name, host, port, params transport⟩) ", " fields? := by
  refine ⟨s!"{name} = {kind}" :: host :: toString port :: before, after, List.cons_ne_nil _ _,
    fun transport => ?_⟩
  simp only [line?, h, Option.map_map, Function.comp_def, List.cons_append]

theorem spliced_trojan (password : String) (tls : Tls) :
    Spliced (fun transport => line? client ⟨name, host, port, .trojan ⟨password, tls, transport⟩⟩) ", "
      transportFields? :=
  spliced_of_eq name host port client "trojan" (s!"password={password}" :: tlsFields tls) []
    fun transport => by simp [proxyFields?]

theorem spliced_vmess (uuid : String) (alterId : UInt16) (security : String) (tls : Option Tls) :
    Spliced (fun transport => line? client ⟨name, host, port, .vmess ⟨uuid, alterId, security, tls, transport⟩⟩)
      ", " transportFields? := by
  cases htls : tls.filter (·.enabled) with
  | none =>
    refine spliced_of_eq name host port client "vmess" [s!"username={uuid}"]
      (if alterId = 0 then ["vmess-aead=true"] else []) fun transport => ?_
    simp [proxyFields?, Params.tls?, Params.storedTls?, htls]
  | some tls =>
    refine spliced_of_eq name host port client "vmess" (s!"username={uuid}" :: "tls=true" :: tlsFields tls)
      (if alterId = 0 then ["vmess-aead=true"] else []) fun transport => ?_
    simp [proxyFields?, Params.tls?, Params.storedTls?, htls]

theorem tells_of_spliced {line? : Option Transport → Option String} (h : Spliced line? ", " transportFields?) :
    Tells (line? (some t)) (line? none) := by
  by_cases hws : t.network = .ws
  · refine h.tells_of_width (by rw [transportFields?, if_pos hws]) rfl ?_
    have hsep : 0 < ", ".length := by decide
    simp only [Text.width_nil, List.cons_append, Text.width_cons]
    omega
  · exact h.tells_of_none (by rw [transportFields?, if_neg hws])

/-- A websocket shows in the line, and with any other transport there is no line. -/
theorem tells_line (s : Server) (h : s.params.transport? = some t) :
    Tells (line? client s) (line? client s.plain) := by
  obtain ⟨name, host, port, params⟩ := s
  cases params with
  | trojan p =>
    obtain ⟨password, tls, transport⟩ := p
    obtain rfl : transport = some t := h
    exact tells_of_spliced (spliced_trojan name host port client password tls)
  | vless p => exact .inl rfl
  | vmess p =>
    obtain ⟨uuid, alterId, security, tls, transport⟩ := p
    obtain rfl : transport = some t := h
    exact tells_of_spliced (spliced_vmess name host port client uuid alterId security tls)
  | _ => simp [Params.transport?] at h

end Surge

namespace Loon

theorem spliced_of_eq {params : Option Transport → Params}
    {fields? : Option Transport → Option (List String)}
    (kind : String) (before after : List String)
    (h : ∀ transport, serverFields? ⟨name, host, port, params transport⟩ =
      (fields? transport).map fun fields => (kind, before ++ fields ++ after)) :
    Spliced (fun transport => line? ⟨name, host, port, params transport⟩) "," fields? := by
  refine ⟨s!"{name} = {kind}" :: host :: toString port :: before, after, List.cons_ne_nil _ _,
    fun transport => ?_⟩
  simp only [line?, h, Option.map_map, Function.comp_def, List.cons_append]

theorem spliced_vmess (uuid : String) (alterId : UInt16) (security : String) (tls : Option Tls) :
    Spliced (fun transport => line? ⟨name, host, port, .vmess ⟨uuid, alterId, security, tls, transport⟩⟩) ","
      streamFields? :=
  spliced_of_eq name host port "vmess" [security, quoted uuid]
    (optionalTlsFields (tls.filter (·.enabled)) ++ [s!"alterId={alterId}"]) fun transport => by
      simp only [serverFields?, List.append_assoc, Params.tls?, Params.storedTls?]

theorem spliced_vless (uuid flow encryption packetEncoding : String) (tls : Option Tls) :
    Spliced (fun transport =>
        line? ⟨name, host, port, .vless ⟨uuid, flow, encryption, packetEncoding, tls, transport⟩⟩)
      "," streamFields? := by
  let tls? := tls.filter (·.enabled)
  let flowFields := if flow.isEmpty then [] else [s!"flow={flow}"]
  exact spliced_of_eq name host port "VLESS" [quoted uuid]
    (optionalTlsFields tls? ++ ((tls?.bind Tls.reality?).map realityFields).getD [] ++ flowFields)
    fun transport => by
      simp only [serverFields?, List.append_assoc, Params.tls?, Params.storedTls?, tls?, flowFields]

/-- The transport of a trojan server, which has no field where there is none. -/
def trojanFields? : Option Transport → Option (List String)
  | none => some []
  | some t => transportFields? t

theorem spliced_trojan (password : String) (tls : Tls) :
    Spliced (fun transport => line? ⟨name, host, port, .trojan ⟨password, tls, transport⟩⟩) ","
      trojanFields? := by
  refine spliced_of_eq name host port "trojan" [quoted password] (tlsFields tls) fun transport => ?_
  cases transport with
  | _ => simp only [serverFields?, trojanFields?, List.append_assoc]

theorem tells_stream_iff {line? : Option Transport → Option String} (h : Spliced line? "," streamFields?) :
    Tells (line? (some t)) (line? none) ↔ t.network ≠ .tcp := by
  have hws : Apart "transport=ws" "transport=tcp" := by decide
  have hhttp : Apart "transport=http" "transport=tcp" := by decide
  cases hnetwork : t.network with
  | tcp =>
    refine iff_of_false ?_ (by simp)
    exact h.not_tells (by rw [streamFields?, transportFields?, hnetwork]) rfl
  | ws =>
    refine iff_of_true ?_ (by simp)
    exact h.tells_of_apart hws (by rw [streamFields?, transportFields?, hnetwork]; rfl) rfl
  | h2 =>
    refine iff_of_true ?_ (by simp)
    exact h.tells_of_apart hhttp (by rw [streamFields?, transportFields?, hnetwork]; rfl) rfl
  | grpc | quic =>
    refine iff_of_true ?_ (by simp)
    exact h.tells_of_none (by rw [streamFields?, transportFields?, hnetwork])

theorem tells_trojan {line? : Option Transport → Option String} (h : Spliced line? "," trojanFields?) :
    Tells (line? (some t)) (line? none) := by
  cases hfields : transportFields? t with
  | none => exact h.tells_of_none hfields
  | some fields =>
    refine h.tells_of_width hfields rfl ?_
    have hsep : 0 < ",".length := by decide
    unfold transportFields? at hfields
    split at hfields
    all_goals cases hfields
    all_goals simp only [pathFields, List.cons_append, Text.width_nil, Text.width_cons]
    all_goals omega

theorem tells_line_iff (s : Server) (h : s.params.transport? = some t) :
    Tells (line? s) (line? s.plain) ↔ ¬Hides .loon s.params t.network := by
  obtain ⟨name, host, port, params⟩ := s
  cases params with
  | trojan p =>
    obtain ⟨password, tls, transport⟩ := p
    obtain rfl : transport = some t := h
    exact iff_of_true (tells_trojan (spliced_trojan name host port password tls)) (by simp [Hides])
  | vless p =>
    obtain ⟨uuid, flow, encryption, packetEncoding, tls, transport⟩ := p
    obtain rfl : transport = some t := h
    refine (tells_stream_iff (spliced_vless name host port uuid flow encryption packetEncoding tls)).trans ?_
    cases t.network with
    | _ => simp [Hides]
  | vmess p =>
    obtain ⟨uuid, alterId, security, tls, transport⟩ := p
    obtain rfl : transport = some t := h
    refine (tells_stream_iff (spliced_vmess name host port uuid alterId security tls)).trans ?_
    cases t.network with
    | _ => simp [Hides]
  | _ => simp [Params.transport?] at h

end Loon

namespace QuantumultX

theorem spliced_of_eq {params : Option Transport → Params}
    {fields? : Option Transport → Option (List String)}
    (kind : String) (before after : List String)
    (h : ∀ transport, serverFields? ⟨name, host, port, params transport⟩ =
      (fields? transport).map fun fields => (kind, before ++ fields ++ after)) :
    Spliced (fun transport => line? ⟨name, host, port, params transport⟩) ", " fields? := by
  let address := Net.authority host port.toNat
  refine ⟨s!"{kind}={address}" :: before, after ++ ["fast-open=false", s!"tag={name}"], List.cons_ne_nil _ _,
    fun transport => ?_⟩
  simp only [line?, h, Option.map_map, Function.comp_def, List.cons_append, List.append_assoc, address]

theorem spliced_vmess (uuid : String) (alterId : UInt16) (security : String) (tls : Option Tls) :
    Spliced (fun transport => line? ⟨name, host, port, .vmess ⟨uuid, alterId, security, tls, transport⟩⟩) ", "
      (streamFields? (tls.filter (·.enabled))) :=
  spliced_of_eq name host port "vmess" ["method=chacha20-poly1305", s!"password={uuid}"]
    (if alterId = 0 then ["aead=true"] else []) fun _ => rfl

theorem spliced_vless (uuid encryption packetEncoding : String) (tls : Option Tls)
    (hreality : (tls.filter (·.enabled)).bind Tls.reality? = none) :
    Spliced (fun transport =>
        line? ⟨name, host, port, .vless ⟨uuid, "", encryption, packetEncoding, tls, transport⟩⟩)
      ", " (streamFields? (tls.filter (·.enabled))) :=
  spliced_of_eq name host port "vless" ["method=none", s!"password={uuid}"] [] fun transport => by
    simp [serverFields?, Params.tls?, Params.storedTls?, hreality]

/-- TLS and transport of a trojan server, which names its fields otherwise where there is no transport. -/
def trojanFields? (tls : Tls) : Option Transport → Option (List String)
  | none =>
    some ("over-tls=true" :: (tls.serverName.map fun sni => s!"tls-host={sni}").toList ++ [verification tls])
  | some t => streamFields? (some tls) (some t)

theorem spliced_trojan (password : String) (tls : Tls) :
    Spliced (fun transport => line? ⟨name, host, port, .trojan ⟨password, tls, transport⟩⟩) ", "
      (trojanFields? tls) :=
  spliced_of_eq name host port "trojan" [s!"password={password}"] [] fun transport => by
    cases transport with
    | _ => simp [serverFields?, trojanFields?]

theorem tells_stream_iff {line? : Option Transport → Option String} {tls : Option Tls}
    (h : Spliced line? ", " (streamFields? tls)) : Tells (line? (some t)) (line? none) ↔ t.network ≠ .tcp := by
  cases hnetwork : t.network with
  | tcp =>
    refine iff_of_false ?_ (by simp)
    exact h.not_tells (by rw [streamFields?, hnetwork]) rfl
  | ws =>
    refine iff_of_true ?_ (by simp)
    cases tls with
    | none =>
      refine h.tells_of_width (by rw [streamFields?, hnetwork]) rfl ?_
      have hsep : 0 < ", ".length := by decide
      simp only [Option.isSome_none, Option.map_none, Option.toList_none, Bool.false_eq_true, if_false,
        List.append_nil, List.cons_append, List.nil_append, Text.width_nil, Text.width_cons]
      omega
    | some tls =>
      have hwss : Apart "obfs=wss" "obfs=over-tls" := by decide
      refine h.tells_of_apart hwss (by rw [streamFields?, hnetwork]; rfl) rfl
  | h2 | grpc | quic =>
    refine iff_of_true ?_ (by simp)
    exact h.tells_of_none (by rw [streamFields?, hnetwork])

theorem tells_trojan {line? : Option Transport → Option String} {tls : Tls}
    (h : Spliced line? ", " (trojanFields? tls)) : Tells (line? (some t)) (line? none) := by
  have hwss : Apart "obfs=wss" "over-tls=true" := by decide
  have hplain : Apart "obfs=over-tls" "over-tls=true" := by decide
  cases hnetwork : t.network with
  | tcp => exact h.tells_of_apart hplain (by rw [trojanFields?, streamFields?, hnetwork]; rfl) rfl
  | ws => exact h.tells_of_apart hwss (by rw [trojanFields?, streamFields?, hnetwork]; rfl) rfl
  | h2 | grpc | quic => exact h.tells_of_none (by rw [trojanFields?, streamFields?, hnetwork])

theorem tells_line_iff (s : Server) (h : s.params.transport? = some t) :
    Tells (line? s) (line? s.plain) ↔
      ¬Hides .quantumultX s.params t.network := by
  obtain ⟨name, host, port, params⟩ := s
  cases params with
  | trojan p =>
    obtain ⟨password, tls, transport⟩ := p
    obtain rfl : transport = some t := h
    exact iff_of_true (tells_trojan (spliced_trojan name host port password tls)) (by simp [Hides])
  | vless p =>
    obtain ⟨uuid, flow, encryption, packetEncoding, tls, transport⟩ := p
    obtain rfl : transport = some t := h
    by_cases hplain : flow = "" ∧ (tls.filter (·.enabled)).bind Tls.reality? = none
    · obtain ⟨rfl, hreality⟩ := hplain
      refine (tells_stream_iff
        (spliced_vless name host port uuid encryption packetEncoding tls hreality)).trans ?_
      cases t.network with
      | _ => simp [Hides, Params.tls?, Params.storedTls?, hreality]
    · refine iff_of_true (.inl ?_) ?_
      · have hleft : (!flow.isEmpty || ((tls.filter (·.enabled)).bind Tls.reality?).isSome) = true := by
          rw [not_and_or] at hplain
          simpa [Option.isSome_iff_ne_none] using hplain
        rw [line?, Option.map_eq_none_iff]
        exact if_pos hleft
      · cases t.network with
        | tcp => exact hplain
        | _ => simp [Hides]
  | vmess p =>
    obtain ⟨uuid, alterId, security, tls, transport⟩ := p
    obtain rfl : transport = some t := h
    refine (tells_stream_iff (spliced_vmess name host port uuid alterId security tls)).trans ?_
    cases t.network with
    | _ => simp [Hides]
  | _ => simp [Params.transport?] at h

end QuantumultX

end ProxyFleet.Subscription

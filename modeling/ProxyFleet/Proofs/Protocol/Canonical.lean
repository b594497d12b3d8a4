import ProxyFleet.Proofs.Json.Record

/-!
# Canonical parameters are read as they were written

* `Tls.decoder_sorted`, `Transport.decoder_sorted` : what parameters are made of;
* `Params.decoder_canonical` : the parameters of each protocol;
* `Params.ofCanonical_canonical` : parameters that are stored are had back;
* `Params.parseRaw?_canonical` : so is their canonical form from its text.
-/

namespace ProxyFleet

set_option autoImplicit false

open Decoder

theorem Utls.decoder_sorted (u : Utls) : Utls.decoder u.toJson.sorted = .ok u := by
  refine record_sorted _ (by simp) fun fields _ h => .seq (.map ?_ _) ?_
  · exact .defaultBool (h.field "enabled" _ (by simp))
  · exact .requiredText (h.field "fingerprint" _ (by simp))

theorem Reality.decoder_sorted (r : Reality) : Reality.decoder r.toJson.sorted = .ok r := by
  refine record_sorted _ (by simp) fun fields _ h => .seq (.seq (.map ?_ _) ?_) ?_
  · exact .defaultBool (h.field "enabled" _ (by simp))
  · exact .requiredText (h.field "public_key" _ (by simp))
  · exact .nonEmptyText (h.field "short_id" (Json.nonEmptyText r.shortId) (by simp))

theorem Tls.decoder_sorted (t : Tls) : Tls.decoder t.toJson.sorted = .ok t := by
  refine record_sorted _ (by simp) fun fields _ h =>
    .seq (.seq (.seq (.seq (.seq (.map ?_ _) ?_) ?_) ?_) ?_) ?_
  · exact .defaultBool (h.field "enabled" _ (by simp))
  · exact .optionalText (h.field "server_name" _ (by simp))
  · refine .default (h.field "insecure" (if t.insecure then some (.bool true) else none) (by simp)) ?_ ?_
    · cases t.insecure with
      | false => rintro _ ⟨⟩
      | true =>
        rintro _ ⟨⟩
        rfl
    · cases t.insecure with
      | false => exact fun _ => rfl
      | true => rintro ⟨⟩
  · exact .texts (h.field "alpn" _ (by simp))
  · refine .optional (h.field "utls" (t.utls.map Utls.toJson) (by simp)) fun u _ => ?_
    exact nullable_record (Utls.decoder_sorted u)
  · refine .optional (h.field "reality" (t.reality.map Reality.toJson) (by simp)) fun r _ => ?_
    exact nullable_record (Reality.decoder_sorted r)

theorem Network.decoder_name (n : Network) : Network.decoder (.str n.name) = .ok n := by
  cases n with
  | _ => rfl

theorem Transport.decoder_sorted (t : Transport) : Transport.decoder t.toJson.sorted = .ok t := by
  refine record_sorted _ (by simp) fun fields _ h =>
    .seq (.seq (.seq (.seq (.seq (.map ?_ _) ?_) ?_) ?_) ?_) ?_
  · exact .required (h.field "type" (some (.str t.network.name)) (by simp)) (Network.decoder_name t.network)
  · exact .optionalText (h.field "path" _ (by simp))
  · exact .texts (h.field "host" _ (by simp))
  · exact .optionalText (h.field "service_name" _ (by simp))
  · exact .optionalText (h.field "header_type" _ (by simp))
  · exact .optionalText (h.field "security" _ (by simp))

/-- Settings that a record of parameters has are read as they were written. -/
theorem Fields.Reads.tls {fields : JsonFields} {t : Tls}
    (hv : Json.field? fields "tls" = (some t.toJson).map Json.sorted) :
    (Fields.required "tls" Tls.decoder).Reads fields t := .required hv (Tls.decoder_sorted t)

theorem Fields.Reads.optionalTls {fields : JsonFields} {t? : Option Tls}
    (hv : Json.field? fields "tls" = (t?.map Tls.toJson).map Json.sorted) :
    (Fields.optional "tls" Tls.decoder).Reads fields t? :=
  .optional hv fun t _ => nullable_record (Tls.decoder_sorted t)

theorem Fields.Reads.transport {fields : JsonFields} {t? : Option Transport}
    (hv : Json.field? fields "transport" = (t?.map Transport.toJson).map Json.sorted) :
    (Fields.optional "transport" Transport.decoder).Reads fields t? :=
  .optional hv fun t _ => nullable_record (Transport.decoder_sorted t)

namespace Params

/-- The parameters of each protocol are read as they were written. -/
theorem decoder_canonical (p : Params) : decoder p.protocol p.canonical = .ok p := by
  unfold decoder canonical fields
  cases p with
  | anytls p =>
    refine record_sorted _ (by simp) fun fields _ h => .seq (.map ?_ _) ?_
    · exact .requiredText (h.field "password" _ (by simp))
    · exact .tls (h.field "tls" _ (by simp))
  | hysteria p =>
    refine record_sorted _ (by simp) fun fields _ h => .seq (.seq (.seq (.seq (.map ?_ _) ?_) ?_) ?_) ?_
    · exact .requiredText (h.field "password" _ (by simp))
    · exact .requiredU32 (h.field "up_mbps" _ (by simp))
    · exact .requiredU32 (h.field "down_mbps" _ (by simp))
    · exact .optionalText (h.field "obfs" _ (by simp))
    · exact .tls (h.field "tls" _ (by simp))
  | hysteria2 p =>
    refine record_sorted _ (by simp) fun fields _ h => .seq (.seq (.seq (.seq (.map ?_ _) ?_) ?_) ?_) ?_
    · exact .requiredText (h.field "password" _ (by simp))
    · exact .optionalText (h.field "obfs_password" _ (by simp))
    · exact .optionalU32 (h.field "up_mbps" _ (by simp))
    · exact .optionalU32 (h.field "down_mbps" _ (by simp))
    · exact .tls (h.field "tls" _ (by simp))
  | shadowsocks p =>
    refine record_sorted _ (by simp) fun fields _ h => .seq (.seq (.seq (.map ?_ _) ?_) ?_) ?_
    · exact .requiredText (h.field "method" _ (by simp))
    · exact .requiredText (h.field "password" _ (by simp))
    · exact .optionalText (h.field "plugin" _ (by simp))
    · exact .optionalText (h.field "plugin_opts" _ (by simp))
  | trojan p =>
    refine record_sorted _ (by simp) fun fields _ h => .seq (.seq (.map ?_ _) ?_) ?_
    · exact .requiredText (h.field "password" _ (by simp))
    · exact .tls (h.field "tls" _ (by simp))
    · exact .transport (h.field "transport" _ (by simp))
  | tuic p =>
    refine record_sorted _ (by simp) fun fields _ h => .seq (.seq (.seq (.seq (.map ?_ _) ?_) ?_) ?_) ?_
    · exact .requiredText (h.field "uuid" _ (by simp))
    · exact .requiredText (h.field "password" _ (by simp))
    · exact .requiredText (h.field "congestion_control" _ (by simp))
    · exact .requiredText (h.field "udp_relay_mode" _ (by simp))
    · exact .tls (h.field "tls" _ (by simp))
  | vless p =>
    refine record_sorted _ (by simp) fun fields _ h =>
      .seq (.seq (.seq (.seq (.seq (.map ?_ _) ?_) ?_) ?_) ?_) ?_
    · exact .requiredText (h.field "uuid" _ (by simp))
    · exact .nonEmptyText (h.field "flow" (Json.nonEmptyText p.flow) (by simp))
    · exact .requiredText (h.field "encryption" _ (by simp))
    · exact .requiredText (h.field "packet_encoding" _ (by simp))
    · exact .optionalTls (h.field "tls" _ (by simp))
    · exact .transport (h.field "transport" _ (by simp))
  | vmess p =>
    refine record_sorted _ (by simp) fun fields _ h => .seq (.seq (.seq (.seq (.map ?_ _) ?_) ?_) ?_) ?_
    · exact .requiredText (h.field "uuid" _ (by simp))
    · exact .required (h.field "alter_id" (some (.nat p.alterId.toNat)) (by simp)) (u16_nat p.alterId)
    · exact .requiredText (h.field "security" _ (by simp))
    · exact .optionalTls (h.field "tls" _ (by simp))
    · exact .transport (h.field "transport" _ (by simp))

end Params

theorem Protocol.ofName?_name (p : Protocol) : Protocol.ofName? p.name = some p := by
  cases p with
  | _ => rfl

namespace Params

/-- Parameters are had back from the form in which they are stored. -/
theorem ofCanonical_canonical {p : Params} {form : JsonFields} (h : p.canonical = .obj form) :
    ofCanonical p.protocol.name form = .ok p := by
  rw [ofCanonical, Protocol.ofName?_name, ← h]
  dsimp only
  rw [decoder_canonical]
  rfl

/-- The form in which parameters are stored is an object in order. -/
theorem canonical_eq_obj (p : Params) : ∃ form, p.canonical = .obj form ∧ (Json.obj form).sorted = .obj form := by
  refine ⟨_, by rw [canonical, Json.record_eq, Json.sorted_obj], ?_⟩
  rw [← Json.sorted_obj, Json.sorted_sorted]

end Params

/-! ## Text -/

section Legible

open Json

variable {depth : Nat}

theorem Utls.legible (u : Utls) : Legible (depth + 1) u.toJson := legible_record (by simp)

theorem Reality.legible (r : Reality) : Legible (depth + 1) r.toJson := legible_record (by simp)

theorem Tls.legible (t : Tls) : Legible (depth + 2) t.toJson := by
  have hinsecure : LegibleField (depth + 1) (if t.insecure then some (.bool true) else none) := by
    cases t.insecure with
    | _ => simp
  exact legible_record (by simp [hinsecure, Utls.legible, Reality.legible])

theorem Transport.legible (t : Transport) : Legible (depth + 2) t.toJson := legible_record (by simp)

theorem Params.legible_canonical (p : Params) : Legible 3 p.canonical := by
  have htls : ∀ t : Tls, Legible 2 t.toJson := Tls.legible
  have htransport : ∀ t : Transport, Legible 2 t.toJson := Transport.legible
  refine Legible.sorted (legible_record ?_)
  cases p with
  | _ => simp [Params.fields, htls, htransport]

/-- The text of a canonical form is read as the form. -/
theorem Params.parseRaw?_canonical (p : Params) : parseRaw? p.canonical.compact = some p.canonical :=
  parseRaw?_compact (p.legible_canonical.mono (by decide))

end Legible

end ProxyFleet

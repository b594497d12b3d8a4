import ProxyFleet.Engine.Codec
import ProxyFleet.Proofs.Protocol.Canonical

/-!
# Engine documents are read as they were written

* `Document.Orderly` : a document whose further fields are in order, of names of their own, and whose
  numbers have 64 bits;
* `Document.decoder_sorted` : such a document is read as it was written;
* `Document.Settled.faithful` : if its further fields are not nested deep, its text can be read, too;
* `Document.read_pretty` : both together.
-/

namespace ProxyFleet.Engine

set_option autoImplicit false

open Decoder

/-! ## Sections -/

theorem Log.decoder_sorted (l : Log) : Log.decoder l.toJson.sorted = .ok l := by
  have hrecord : l.toJson =
      Json.record [("level", some (.str l.level)), ("timestamp", some (.bool l.timestamp))] := rfl
  rw [hrecord]
  refine record_sorted _ (by simp) fun fields _ h => .seq (.map ?_ _) ?_
  · exact .requiredText (h.field "level" _ (by simp))
  · exact .defaultBool (h.field "timestamp" _ (by simp))

theorem DnsServer.decoder_sorted (s : DnsServer) : DnsServer.decoder s.toJson.sorted = .ok s := by
  refine record_sorted _ (by simp) fun fields _ h => .seq (.seq (.map ?_ _) ?_) ?_
  · exact .defaultText (h.field "tag" _ (by simp))
  · exact .defaultText (h.field "address" _ (by simp))
  · exact .optionalText (h.field "detour" _ (by simp))

theorem DnsRule.decoder_sorted (r : DnsRule) : DnsRule.decoder r.toJson.sorted = .ok r := by
  refine record_sorted _ (by simp) fun fields _ h => .seq (.seq (.map ?_ _) ?_) ?_
  · exact .texts (h.field "domain_suffix" _ (by simp))
  · exact .texts (h.field "geosite" _ (by simp))
  · exact .defaultText (h.field "server" _ (by simp))

theorem Dns.decoder_sorted (d : Dns) : Dns.decoder d.toJson.sorted = .ok d := by
  refine record_sorted _ (by simp) fun fields _ h => .seq (.seq (.map ?_ _) ?_) ?_
  · exact .items (h.field "servers" _ (by simp)) fun s _ => DnsServer.decoder_sorted s
  · exact .nonEmptyItems (h.field "rules" (nonEmptyList DnsRule.toJson d.rules) (by simp)) fun r _ =>
      DnsRule.decoder_sorted r
  · exact .optionalText (h.field "final" _ (by simp))

theorem RouteRule.decoder_sorted (r : RouteRule) : RouteRule.decoder r.toJson.sorted = .ok r := by
  refine record_sorted _ (by simp) fun fields _ h =>
    .seq (.seq (.seq (.seq (.seq (.map ?_ _) ?_) ?_) ?_) ?_) ?_
  · exact .optionalText (h.field "protocol" _ (by simp))
  · refine .optional (h.field "ip_is_private" (r.ipIsPrivate.map .bool) (by simp)) fun _ _ => rfl
  · exact .texts (h.field "geosite" _ (by simp))
  · exact .texts (h.field "geoip" _ (by simp))
  · exact .texts (h.field "domain_suffix" _ (by simp))
  · exact .defaultText (h.field "outbound" _ (by simp))

theorem Route.decoder_sorted (r : Route) : Route.decoder r.toJson.sorted = .ok r := by
  refine record_sorted _ (by simp) fun fields _ h => .seq (.seq (.map ?_ _) ?_) ?_
  · exact .items (h.field "rules" _ (by simp)) fun rule _ => RouteRule.decoder_sorted rule
  · exact .optionalText (h.field "final" _ (by simp))
  · exact .defaultBool (h.field "auto_detect_interface" _ (by simp))

/-! ## Listeners and outbounds -/

/-- A listener with a port of 64 bits, and further fields of names that it has none of its own for. -/
structure Inbound.Orderly (i : Inbound) : Prop where
  port : ∀ port ∈ i.listenPort, SixtyFourBits port
  extra : Json.Further ["type", "tag", "listen", "listen_port"] i.extra

/-- An orderly listener whose further fields can be read from their text. -/
structure Inbound.Settled (i : Inbound) : Prop where
  port : ∀ port ∈ i.listenPort, SixtyFourBits port
  extra : Json.Further ["type", "tag", "listen", "listen_port"] i.extra
  legible : ∀ f ∈ i.extra, Json.Legible 3 f.2

theorem Inbound.Settled.orderly {i : Inbound} (hi : i.Settled) : i.Orderly := ⟨hi.port, hi.extra⟩

/-- The fields that a listener has of its own, from which it is made but for the further ones. -/
def Inbound.ownFields : Fields (JsonFields → Inbound) :=
  Inbound.mk <$> Fields.default "type" text "" <*> Fields.default "tag" text ""
    <*> Fields.optional "listen" text <*> Fields.optional "listen_port" i64

theorem Inbound.decoder_eq (v : Json) : Inbound.decoder v = (do
    let (inbound, extra) ← extended "Inbound" Inbound.ownFields v
    return inbound extra) := rfl

theorem Inbound.decoder_sorted {i : Inbound} (hi : i.Orderly) : Inbound.decoder i.toJson.sorted = .ok i := by
  have hread : extended "Inbound" Inbound.ownFields i.toJson.sorted =
      .ok (Inbound.mk i.kind i.tag i.listen i.listenPort, i.extra) := by
    refine extended_sorted _ (by simp) hi.extra rfl fun fields _ h => .seq (.seq (.seq (.map ?_ _) ?_) ?_) ?_
    · exact .defaultText (h.field "type" _ (by simp))
    · exact .defaultText (h.field "tag" _ (by simp))
    · exact .optionalText (h.field "listen" _ (by simp))
    · exact .optional (h.field "listen_port" (i.listenPort.map .int) (by simp)) fun port hport =>
        nullable_eq_ok (by rintro ⟨⟩) (i64_int (hi.port port hport))
  rw [Inbound.decoder_eq, hread]
  rfl

/-- A transport whose headers are in order. -/
def OutboundTransport.Settled (t : OutboundTransport) : Prop := Keyed.Ordered t.headers

/-- Texts by their names are read as they were written if the names are in order. -/
theorem map_text_sorted {entries : List (String × String)} (h : Keyed.Ordered entries) :
    map text (Json.obj (entries.map fun e => (e.1, .str e.2))).sorted = .ok entries := by
  have hfields : Keyed.Ordered (entries.map fun e => (e.1, Json.str e.2)) := List.pairwise_map.2 h
  have hsorted : (Json.obj (entries.map fun e => (e.1, Json.str e.2))).sorted =
      .obj (entries.map fun e => (e.1, Json.str e.2)) := by
    rw [Json.sorted_obj, List.map_map]
    simp only [Function.comp_def, Json.sorted_str]
    rw [Keyed.sort_eq_self hfields]
  rw [hsorted]
  show (entries.map fun e => (e.1, Json.str e.2)).mapM (fun f => (text f.2).map (f.1, ·)) = _
  clear h hfields hsorted
  induction entries with
  | nil => rfl
  | cons e entries ih =>
    rw [List.map_cons, List.mapM_cons, ih]
    rfl

theorem OutboundTransport.decoder_sorted {t : OutboundTransport} (ht : t.Settled) :
    OutboundTransport.decoder t.toJson.sorted = .ok t := by
  refine record_sorted _ (by simp) fun fields _ h =>
    .seq (.seq (.seq (.seq (.seq (.seq (.map ?_ _) ?_) ?_) ?_) ?_) ?_) ?_
  · exact .requiredText (h.field "type" _ (by simp))
  · exact .optionalText (h.field "path" _ (by simp))
  · exact .texts (h.field "host" _ (by simp))
  · refine .default (h.field "headers" (if t.headers.isEmpty then none
      else some (.obj (t.headers.map fun e => (e.1, .str e.2)))) (by simp)) ?_ ?_
    · split_ifs
      · rintro _ ⟨⟩
      · rintro _ ⟨⟩
        exact map_text_sorted ht
    · split_ifs with hempty
      · exact fun _ => (List.isEmpty_iff.1 hempty).symm
      · rintro ⟨⟩
  · exact .optionalText (h.field "service_name" _ (by simp))
  · exact .optionalU32 (h.field "max_early_data" _ (by simp))
  · exact .optionalText (h.field "early_data_header_name" _ (by simp))

/-- The names of the fields that an outbound has of its own. -/
def outboundNames : List String :=
  ["type", "tag", "server", "server_port", "uuid", "password", "method", "security", "alter_id", "flow",
   "packet_encoding", "tls", "transport", "outbounds"]

/-- An outbound with a port of 64 bits, and further fields of names that it has none of its own for. -/
structure Outbound.Orderly (o : Outbound) : Prop where
  port : ∀ port ∈ o.serverPort, SixtyFourBits port
  transport : ∀ t ∈ o.transport, t.Settled
  extra : Json.Further outboundNames o.extra

/-- An orderly outbound whose further fields can be read from their text. -/
structure Outbound.Settled (o : Outbound) : Prop where
  port : ∀ port ∈ o.serverPort, SixtyFourBits port
  transport : ∀ t ∈ o.transport, t.Settled
  extra : Json.Further outboundNames o.extra
  legible : ∀ f ∈ o.extra, Json.Legible 3 f.2

theorem Outbound.Settled.orderly {o : Outbound} (ho : o.Settled) : o.Orderly :=
  ⟨ho.port, ho.transport, ho.extra⟩

/-- The fields that an outbound has of its own, from which it is made but for the further ones. -/
def Outbound.ownFields : Fields (JsonFields → Outbound) :=
  Outbound.mk <$> Fields.default "type" text ""
    <*> Fields.default "tag" text "" <*> Fields.optional "server" text
    <*> Fields.optional "server_port" i64 <*> Fields.optional "uuid" text
    <*> Fields.optional "password" text <*> Fields.optional "method" text
    <*> Fields.optional "security" text <*> Fields.optional "alter_id" u16
    <*> Fields.optional "flow" text <*> Fields.optional "packet_encoding" text
    <*> Fields.optional "tls" Tls.decoder <*> Fields.optional "transport" OutboundTransport.decoder
    <*> Fields.optional "outbounds" (list text)

theorem Outbound.decoder_eq (v : Json) : Outbound.decoder v = (do
    let (outbound, extra) ← extended "Outbound" Outbound.ownFields v
    return outbound extra) := rfl

theorem Outbound.decoder_sorted {o : Outbound} (ho : o.Orderly) : Outbound.decoder o.toJson.sorted = .ok o := by
  -- what is taken out of the object is all but the further fields, and these are kept
  have hread : extended "Outbound" Outbound.ownFields o.toJson.sorted =
      .ok (Outbound.mk o.kind o.tag o.server o.serverPort o.uuid o.password o.method o.security o.alterId o.flow
        o.packetEncoding o.tls o.transport o.members, o.extra) := by
    refine extended_sorted _ (by simp) ho.extra rfl fun fields _ h =>
      .seq (.seq (.seq (.seq (.seq (.seq (.seq (.seq (.seq (.seq (.seq (.seq (.seq (.map ?_ _)
        ?_) ?_) ?_) ?_) ?_) ?_) ?_) ?_) ?_) ?_) ?_) ?_) ?_
    · exact .defaultText (h.field "type" _ (by simp))
    · exact .defaultText (h.field "tag" _ (by simp))
    · exact .optionalText (h.field "server" _ (by simp))
    · exact .optional (h.field "server_port" (o.serverPort.map .int) (by simp)) fun port hport =>
        nullable_eq_ok (by rintro ⟨⟩) (i64_int (ho.port port hport))
    · exact .optionalText (h.field "uuid" _ (by simp))
    · exact .optionalText (h.field "password" _ (by simp))
    · exact .optionalText (h.field "method" _ (by simp))
    · exact .optionalText (h.field "security" _ (by simp))
    · exact .optionalU16 (h.field "alter_id" _ (by simp))
    · exact .optionalText (h.field "flow" _ (by simp))
    · exact .optionalText (h.field "packet_encoding" _ (by simp))
    · exact .optionalTls (h.field "tls" _ (by simp))
    · exact .optional (h.field "transport" (o.transport.map OutboundTransport.toJson) (by simp)) fun t ht =>
        nullable_record (OutboundTransport.decoder_sorted (ho.transport t ht))
    · exact .optional (h.field "outbounds" (o.members.map .strings) (by simp)) fun members _ =>
        nullable_eq_ok (by rw [Json.sorted_strings]; rintro ⟨⟩) (texts_sorted members)
  rw [Outbound.decoder_eq, hread]
  rfl

/-! ## Documents -/

/-- A document of listeners and outbounds that are orderly. -/
structure Document.Orderly (d : Document) : Prop where
  inbounds : ∀ i ∈ d.inbounds, i.Orderly
  outbounds : ∀ o ∈ d.outbounds, o.Orderly

/-- A document of listeners and outbounds that are settled. -/
structure Document.Settled (d : Document) : Prop where
  inbounds : ∀ i ∈ d.inbounds, i.Settled
  outbounds : ∀ o ∈ d.outbounds, o.Settled

theorem Document.Settled.orderly {d : Document} (hd : d.Settled) : d.Orderly :=
  ⟨fun i hi => (hd.inbounds i hi).orderly, fun o ho => (hd.outbounds o ho).orderly⟩

theorem Document.decoder_sorted {d : Document} (hd : d.Orderly) : Document.decoder d.toJson.sorted = .ok d := by
  refine record_sorted _ (by simp) fun fields _ h => .seq (.seq (.seq (.seq (.map ?_ _) ?_) ?_) ?_) ?_
  · refine .optional (h.field "log" (d.log.map Log.toJson) (by simp)) fun l _ => ?_
    exact nullable_eq_ok (by rw [Log.toJson, Json.sorted_obj]; simp) (Log.decoder_sorted l)
  · exact .optional (h.field "dns" (d.dns.map Dns.toJson) (by simp)) fun s _ =>
      nullable_record (Dns.decoder_sorted s)
  · exact .items (h.field "inbounds" _ (by simp)) fun i hi => Inbound.decoder_sorted (hd.inbounds i hi)
  · exact .items (h.field "outbounds" _ (by simp)) fun o ho => Outbound.decoder_sorted (hd.outbounds o ho)
  · exact .optional (h.field "route" (d.route.map Route.toJson) (by simp)) fun r _ =>
      nullable_record (Route.decoder_sorted r)

/-! ## Text -/

section Legible

open Json

variable {depth : Nat}

theorem legible_withExtra {specs : List (String × Option Json)} {extra : JsonFields}
    (hspecs : ∀ f ∈ specs, LegibleField depth f.2) (hextra : ∀ f ∈ extra, Legible depth f.2) :
    Legible (depth + 1) (withExtra extra (record specs)) :=
  List.forall_mem_append.2 ⟨legible_record hspecs, hextra⟩

theorem Log.legible (l : Log) : Legible (depth + 1) l.toJson :=
  List.forall_mem_cons.2 ⟨legible_str _, by simp⟩

theorem legibleField_nonEmptyList {α : Type} {write : α → Json} {as : List α}
    (h : ∀ a ∈ as, Legible depth (write a)) : LegibleField (depth + 1) (nonEmptyList write as) :=
  legibleField_unless (legible_arr h)

theorem DnsServer.legible (s : DnsServer) : Legible (depth + 1) s.toJson := legible_record (by simp)

theorem DnsRule.legible (r : DnsRule) : Legible (depth + 2) r.toJson := legible_record (by simp)

theorem Dns.legible (d : Dns) : Legible (depth + 4) d.toJson := by
  have hservers : Legible (depth + 3) (.arr (d.servers.map DnsServer.toJson)) :=
    legible_arr fun s _ => s.legible
  have hrules : LegibleField (depth + 3) (nonEmptyList DnsRule.toJson d.rules) :=
    legibleField_nonEmptyList fun r _ => r.legible
  exact legible_record (by simp [hservers, hrules])

theorem RouteRule.legible (r : RouteRule) : Legible (depth + 2) r.toJson := legible_record (by simp)

theorem Route.legible (r : Route) : Legible (depth + 4) r.toJson := by
  have hrules : Legible (depth + 3) (.arr (r.rules.map RouteRule.toJson)) :=
    legible_arr fun rule _ => rule.legible
  exact legible_record (by simp [hrules])

theorem Inbound.legible {i : Inbound} (hi : i.Settled) : Legible 4 i.toJson := by
  have hport : ∀ port ∈ i.listenPort, Legible 3 (int port) := fun port hport =>
    (hi.port port hport).legible
  exact legible_withExtra (by simpa using hport) hi.legible

theorem OutboundTransport.legible (t : OutboundTransport) : Legible (depth + 2) t.toJson := by
  have hheaders : LegibleField (depth + 1) (if t.headers.isEmpty then none
      else some (.obj (t.headers.map fun e => (e.1, .str e.2)))) :=
    legibleField_unless (List.forall_mem_map.2 fun e _ => legible_str e.2)
  exact legible_record (by simpa using hheaders)

theorem Outbound.legible {o : Outbound} (ho : o.Settled) : Legible 4 o.toJson := by
  have hport : ∀ port ∈ o.serverPort, Legible 3 (int port) := fun port hport =>
    (ho.port port hport).legible
  have htls : ∀ t ∈ o.tls, Legible 3 t.toJson := fun t _ => t.legible
  have htransport : ∀ t ∈ o.transport, Legible 3 t.toJson := fun t _ => t.legible
  exact legible_withExtra (by simpa using ⟨hport, htls, htransport⟩) ho.legible

/-- The values of a settled document nest six deep at most. -/
theorem Document.legible {d : Document} (hd : d.Settled) : Legible 6 d.toJson := by
  have hinbounds : Legible 5 (.arr (d.inbounds.map Inbound.toJson)) :=
    legible_arr fun i hi => Inbound.legible (hd.inbounds i hi)
  have houtbounds : Legible 5 (.arr (d.outbounds.map Outbound.toJson)) :=
    legible_arr fun o ho => Outbound.legible (hd.outbounds o ho)
  exact legible_record (by simp [hinbounds, houtbounds, Log.legible, Dns.legible, Route.legible])

end Legible

/-- The text of a settled document can be read. -/
theorem Document.Settled.faithful {d : Document} (hd : d.Settled) : d.toJson.Faithful :=
  (Json.Legible.mono (Document.legible hd) (by decide)).faithful

/-- It is read as the document. -/
theorem Document.read_pretty {d : Document} (hd : d.Settled) :
    ∃ v, Json.parse? d.toJson.pretty = some v ∧ Document.decoder v = .ok d :=
  ⟨_, hd.faithful.1, Document.decoder_sorted hd.orderly⟩

end ProxyFleet.Engine

import ProxyFleet.Proofs.Protocol.Renewed
import ProxyFleet.Subscription.Render

/-!
# What a format makes of one server

A subscription is put together from the entries of its servers. A server that the format cannot express
has none, and is left out.

* `shown?` : the entry that a format shows of a server;
* `body_eq_of_entries` : names and entries are all that the body depends on;
* `Server.plain` : the server over a plain stream;
* `Tells` : an entry is missing, or differs from the one over a plain stream;
* `Hides` : where that fails;
* `Server.Accepted` : the parameters are some that were accepted, perhaps with another credential.
-/

namespace ProxyFleet.Subscription

set_option autoImplicit false

/-- What a format makes of one server. -/
inductive Entry where
  | document (v : Json)
  | listing (fields : Yaml.Fields)
  | line (text : String)

/-- The entry of a server, where the format can express it. -/
def shown? (format : Format) (s : Server) : Option Entry :=
  match format with
  | .singBox => some (.document s.toEntry.toOutbound.toJson)
  | .clash => (Clash.listing? .plain s).map .listing
  | .clashMeta => (Clash.listing? .extended s).map .listing
  | .surge => (Surge.line? .surge s).map .line
  | .surfboard => (Surge.line? .surfboard s).map .line
  | .quantumultX => (QuantumultX.line? s).map .line
  | .loon => (Loon.line? s).map .line
  | .base64 => some (.line (ShareLink.link s))

/-- The format of a dialect's profiles. -/
def Clash.Dialect.format : Clash.Dialect → Format
  | .plain => .clash
  | .extended => .clashMeta

theorem Clash.shown?_format (dialect : Clash.Dialect) (s : Server) :
    shown? dialect.format s = (Clash.listing? dialect s).map .listing := by
  cases dialect with
  | _ => rfl

theorem Clash.listing?_of_shared (dialect : Clash.Dialect) {s : Server} (h : Clash.extendedListing? s = none) :
    Clash.listing? dialect s = Clash.sharedListing? dialect s := by
  rw [Clash.listing?, h, ite_self, Option.or_none]

/-- The format of a client's profiles. -/
def Surge.Client.format : Surge.Client → Format
  | .surge => .surge
  | .surfboard => .surfboard

theorem Surge.shown?_format (client : Surge.Client) (s : Server) :
    shown? client.format s = (Surge.line? client s).map .line := by
  cases client with
  | _ => rfl

/-! ## The body -/

section Body

variable {servers others : List Server}

/-- The servers have one name and one entry. -/
structure SameEntry (format : Format) (s t : Server) : Prop where
  name : s.name = t.name
  entry : shown? format s = shown? format t

theorem SameEntry.of_map {β : Type} {f : Server → Option β} {g : β → Entry} (hg : g.Injective)
    {format : Format} (hentry : ∀ s, shown? format s = (f s).map g) {s t : Server}
    (h : SameEntry format s t) : f s = f t := by
  have heq := h.entry
  rw [hentry, hentry] at heq
  exact Option.map_injective hg heq

theorem filterMap_eq_of_forall₂ {α β : Type} {R : α → α → Prop} {f : α → Option β}
    (hf : ∀ {a b}, R a b → f a = f b) {l l' : List α} (h : List.Forall₂ R l l') :
    l.filterMap f = l'.filterMap f := by
  induction h with
  | nil => rfl
  | cons hab _ ih => simp only [List.filterMap_cons, hf hab, ih]

theorem map_eq_of_forall₂ {α β : Type} {R : α → α → Prop} {f : α → β}
    (hf : ∀ {a b}, R a b → f a = f b) {l l' : List α} (h : List.Forall₂ R l l') : l.map f = l'.map f := by
  induction h with
  | nil => rfl
  | cons hab _ ih => rw [List.map_cons, List.map_cons, hf hab, ih]

theorem clash_render_eq {dialect : Clash.Dialect} {format : Format}
    (hformat : ∀ s, shown? format s = (Clash.listing? dialect s).map .listing)
    (h : List.Forall₂ (SameEntry format) servers others) :
    Clash.render dialect servers = Clash.render dialect others := by
  have hprofile : Clash.profile dialect servers = Clash.profile dialect others := by
    refine filterMap_eq_of_forall₂ (fun {s t} hst => ?_) h
    have hlisting := hst.of_map (fun _ _ => Entry.listing.inj) hformat
    simp only [hlisting, hst.name]
  rw [Clash.render, hprofile, Clash.render]

theorem surge_render_eq {client : Surge.Client} {format : Format}
    (hformat : ∀ s, shown? format s = (Surge.line? client s).map .line)
    (h : List.Forall₂ (SameEntry format) servers others) :
    Surge.render client servers = Surge.render client others := by
  have hprofile : Surge.profile client servers = Surge.profile client others := by
    refine filterMap_eq_of_forall₂ (fun {s t} hst => ?_) h
    have hline := hst.of_map (fun _ _ => Entry.line.inj) hformat
    simp only [hline, hst.name]
  rw [Surge.render, hprofile, Surge.render]

theorem document_eq (settings : EngineSettings) (h : List.Forall₂ (SameEntry .singBox) servers others) :
    (Engine.Document.ofNodes (servers.map Server.toEntry) settings).toJson =
      (Engine.Document.ofNodes (others.map Server.toEntry) settings).toJson := by
  have houtbounds : servers.map (fun s => s.toEntry.toOutbound.toJson) =
      others.map fun s => s.toEntry.toOutbound.toJson :=
    map_eq_of_forall₂ (fun hst => Entry.document.inj (Option.some.inj hst.entry)) h
  have htags : servers.map (fun s => s.toEntry.tag) = others.map fun s => s.toEntry.tag :=
    map_eq_of_forall₂ (fun hst => hst.name) h
  simp only [Engine.Document.ofNodes, Engine.Document.toJson, List.map_append, List.map_map, Function.comp_def,
    houtbounds, htags]

/-- The body of a subscription is put together from the names and the entries of the servers. -/
theorem body_eq_of_entries {format : Format} (settings : EngineSettings)
    (h : List.Forall₂ (SameEntry format) servers others) :
    body format servers settings = body format others settings := by
  cases format with
  | singBox => exact congrArg Json.pretty (document_eq settings h)
  | clash => exact clash_render_eq (fun _ => rfl) h
  | clashMeta => exact clash_render_eq (fun _ => rfl) h
  | surge => exact surge_render_eq (fun _ => rfl) h
  | surfboard => exact surge_render_eq (fun _ => rfl) h
  | quantumultX =>
    have hlines : QuantumultX.lines servers = QuantumultX.lines others :=
      filterMap_eq_of_forall₂ (fun hst => hst.of_map (fun _ _ => Entry.line.inj) fun _ => rfl) h
    rw [body, QuantumultX.render, hlines, body, QuantumultX.render]
  | loon =>
    have hlines : Loon.lines servers = Loon.lines others :=
      filterMap_eq_of_forall₂ (fun hst => hst.of_map (fun _ _ => Entry.line.inj) fun _ => rfl) h
    rw [body, Loon.render, hlines, body, Loon.render]
  | base64 =>
    have hlinks : ShareLink.links servers = ShareLink.links others :=
      map_eq_of_forall₂ (fun hst => Entry.line.inj (Option.some.inj hst.entry)) h
    rw [body, ShareLink.render, hlinks, body, ShareLink.render]

end Body

/-! ## Transports -/

/-- The server over a plain stream. -/
def Server.plain (s : Server) : Server := { s with params := s.params.withoutTransport }

/-- A server that has a transport is left out, or it does not look as it would over a plain stream. -/
def Tells {α : Type} (entry plain : Option α) : Prop := entry = none ∨ entry ≠ plain

theorem tells_map_iff {α β : Type} {g : α → β} (hg : g.Injective) {entry plain : Option α} :
    Tells (entry.map g) (plain.map g) ↔ Tells entry plain := by
  unfold Tells
  rw [Option.map_eq_none_iff, ne_eq, (Option.map_injective hg).eq_iff]

theorem tells_some_iff {α : Type} {entry plain : α} : Tells (some entry) (some plain) ↔ entry ≠ plain := by
  simp [Tells]

/-- Where a format shows a server that has a transport of this network as it would over a plain stream. -/
def Hides (format : Format) (params : Params) (network : Network) : Prop :=
  match format, params, network with
  | .clashMeta, .vless _, .quic => True
  | .loon, .vless _, .tcp | .loon, .vmess _, .tcp | .quantumultX, .vmess _, .tcp => True
  | .quantumultX, .vless p, .tcp => p.flow = "" ∧ params.tls?.bind Tls.reality? = none
  | _, _, _ => False

/-! ## Accepted parameters -/

/-- The parameters were accepted, but for the credential, which may be a user's by now. -/
def Server.Accepted (s : Server) : Prop :=
  ∃ protocol raw params uuid password, Params.parse protocol raw = .ok params ∧
    s.params = params.withCredential uuid password

theorem exists_withCredential_eq (p : Params) : ∃ uuid password, p = p.withCredential uuid password := by
  cases p with
  | tuic p => exact ⟨p.uuid, p.password, rfl⟩
  | vless p | vmess p => exact ⟨p.uuid, "", rfl⟩
  | anytls p | hysteria p | hysteria2 p | shadowsocks p | trojan p => exact ⟨"", p.password, rfl⟩

theorem Server.accepted_of_parse {s : Server} {protocol : String} {raw : JsonFields}
    (h : Params.parse protocol raw = .ok s.params) : s.Accepted := by
  obtain ⟨uuid, password, heq⟩ := exists_withCredential_eq s.params
  exact ⟨protocol, raw, s.params, uuid, password, h, heq⟩

theorem Server.Accepted.forUser {s : Server} (h : s.Accepted) (uuid : String) : (s.forUser uuid).Accepted := by
  obtain ⟨protocol, raw, params, uuid', password, hparse, hparams⟩ := h
  refine ⟨protocol, raw, params, uuid, passwordFor s.params uuid, hparse, ?_⟩
  rw [Server.forUser, hparams]
  cases params with
  | _ => rfl

theorem transport?_withCredential (p : Params) (uuid password : String) :
    (p.withCredential uuid password).transport? = p.transport? := by
  cases p with
  | _ => rfl

theorem Server.Accepted.normal_transport {s : Server} (h : s.Accepted) {t : Transport}
    (ht : s.params.transport? = some t) : t.Normal := by
  obtain ⟨protocol, raw, params, uuid, password, hparse, hparams⟩ := h
  rw [hparams, transport?_withCredential] at ht
  exact Params.parse_yields_transport protocol raw params hparse t ht

end ProxyFleet.Subscription

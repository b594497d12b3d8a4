import ProxyFleet.Proofs.Engine.Validity

/-!
# Names that a document refers to

Warnings are about names that nothing defines. The document that offers a list of nodes refers to its
own outbounds and name servers only, whatever the nodes are, so that nothing but errors can be found
about it.

* `Dns.Resolved`, `Route.Resolved`, `Document.Resolved` : every name that is referred to is defined;
* `warnings_eq_nil_iff` : there are no warnings exactly then;
* `resolved_ofNodes` : the document that offers nodes refers to nothing else;
* `validate_ofNodes` : when it is valid, the parameters of its nodes having been accepted.
-/

namespace ProxyFleet.Engine

set_option autoImplicit false

variable {tags : List String}

/-! ## Checks of one reference -/

theorem checkDefined_eq_nil_iff {place : Place} {defined : List String} {name message : String} :
    checkDefined place defined name message = [] ↔ name ∈ defined := by
  unfold checkDefined
  split_ifs with h
  · simpa using h
  · simpa using h

theorem checkMembers_eq_nil_iff {i : Nat} {o : Outbound} :
    checkMembers tags i o = [] ↔ ∀ member ∈ o.members.getD [], member ∈ tags := by
  simp only [checkMembers, List.flatMap_eq_nil_iff, checkDefined_eq_nil_iff]

/-- A name server has an address, and is asked through an outbound that there is. -/
structure DnsServer.Resolved (tags : List String) (s : DnsServer) : Prop where
  address : s.address ≠ ""
  detour : ∀ name ∈ s.detour, name ∈ tags

theorem checkDnsServer_eq_nil_iff {i : Nat} {s : DnsServer} :
    checkDnsServer tags i s = [] ↔ s.Resolved tags := by
  have haddress : (if s.address.isEmpty then
      [(⟨.dnsServer i "address", "", .required, "dns server has no address"⟩ : Finding)] else []) = [] ↔
      s.address ≠ "" := by
    split_ifs with h
    · simpa using h
    · simpa using h
  unfold checkDnsServer
  rw [List.append_eq_nil_iff, haddress]
  cases hdetour : s.detour with
  | none => exact ⟨fun h => ⟨h.1, by simp [hdetour]⟩, fun h => ⟨h.address, rfl⟩⟩
  | some name =>
    dsimp only
    rw [checkDefined_eq_nil_iff]
    exact ⟨fun h => ⟨h.1, by simpa [hdetour] using h.2⟩, fun h => ⟨h.address, h.detour name hdetour⟩⟩

/-! ## Sections -/

/-- Name resolution refers to outbounds that there are, and to its own servers. -/
structure Dns.Resolved (tags : List String) (d : Dns) : Prop where
  servers : ∀ s ∈ d.servers, s.Resolved tags
  rules : ∀ r ∈ d.rules, r.server ∈ d.servers.map (·.tag)
  final : ∀ name ∈ d.finalServer, name ∈ d.servers.map (·.tag)

/-- What a check of each element of a list by its place finds, it finds nowhere. -/
theorem flatten_mapIdx_eq_nil_iff_forall_mem {α β : Type} {f : Nat → α → List β} {P : α → Prop} {l : List α}
    (hf : ∀ i a, f i a = [] ↔ P a) : (l.mapIdx f).flatten = [] ↔ ∀ a ∈ l, P a := by
  simp only [flatten_mapIdx_eq_nil_iff, hf]
  exact List.forall_mem_iff_getElem.symm

theorem checkDns_eq_nil_iff {d : Dns} : checkDns tags d = [] ↔ d.Resolved tags := by
  unfold checkDns
  dsimp only
  have hservers : (d.servers.mapIdx (checkDnsServer tags)).flatten = [] ↔ ∀ s ∈ d.servers, s.Resolved tags :=
    flatten_mapIdx_eq_nil_iff_forall_mem fun _ _ => checkDnsServer_eq_nil_iff
  have hrules : (d.rules.mapIdx fun i r => checkDefined (.dnsRule i "server") (d.servers.map (·.tag)) r.server
      s!"dns server '{r.server}' does not exist").flatten = [] ↔
      ∀ r ∈ d.rules, r.server ∈ d.servers.map (·.tag) :=
    flatten_mapIdx_eq_nil_iff_forall_mem fun _ _ => checkDefined_eq_nil_iff
  rw [List.append_eq_nil_iff, List.append_eq_nil_iff, hservers, hrules]
  cases hfinal : d.finalServer with
  | none => exact ⟨fun h => ⟨h.1.1, h.1.2, by simp [hfinal]⟩, fun h => ⟨⟨h.servers, h.rules⟩, rfl⟩⟩
  | some name =>
    dsimp only
    rw [checkDefined_eq_nil_iff]
    exact ⟨fun h => ⟨h.1.1, h.1.2, by simpa [hfinal] using h.2⟩,
      fun h => ⟨⟨h.servers, h.rules⟩, h.final name hfinal⟩⟩

/-- Routing refers to outbounds that there are. -/
structure Route.Resolved (tags : List String) (r : Route) : Prop where
  rules : ∀ rule ∈ r.rules, rule.outbound ∈ tags
  final : ∀ name ∈ r.finalOutbound, name ∈ tags

theorem checkRoute_eq_nil_iff {r : Route} : checkRoute tags r = [] ↔ r.Resolved tags := by
  unfold checkRoute
  have hrules : (r.rules.mapIdx fun i rule => checkDefined (.routeRule i "outbound") tags rule.outbound
      s!"route outbound '{rule.outbound}' does not exist").flatten = [] ↔ ∀ rule ∈ r.rules, rule.outbound ∈ tags :=
    flatten_mapIdx_eq_nil_iff_forall_mem fun _ _ => checkDefined_eq_nil_iff
  rw [List.append_eq_nil_iff, hrules]
  cases hfinal : r.finalOutbound with
  | none => exact ⟨fun h => ⟨h.1, by simp [hfinal]⟩, fun h => ⟨h.rules, rfl⟩⟩
  | some name =>
    dsimp only
    rw [checkDefined_eq_nil_iff]
    exact ⟨fun h => ⟨h.1, by simpa [hfinal] using h.2⟩, fun h => ⟨h.rules, h.final name hfinal⟩⟩

/-- Every name that a document refers to is defined in it. -/
structure Document.Resolved (d : Document) : Prop where
  members : ∀ o ∈ d.outbounds, ∀ member ∈ o.members.getD [], member ∈ d.outboundTags
  dns : ∀ s ∈ d.dns, s.Resolved d.outboundTags
  route : ∀ r ∈ d.route, r.Resolved d.outboundTags

theorem getD_map_eq_nil_iff {α β : Type} {section? : Option α} {check : α → List β} :
    (section?.map check).getD [] = [] ↔ ∀ a ∈ section?, check a = [] := by
  cases section? with
  | none => simp
  | some a => simp

theorem warnings_eq_nil_iff {d : Document} : d.warnings = [] ↔ d.Resolved := by
  unfold Document.warnings
  have hmembers : (d.outbounds.mapIdx (checkMembers d.outboundTags)).flatten = [] ↔
      ∀ o ∈ d.outbounds, ∀ member ∈ o.members.getD [], member ∈ d.outboundTags :=
    flatten_mapIdx_eq_nil_iff_forall_mem fun _ _ => checkMembers_eq_nil_iff
  rw [List.append_eq_nil_iff, List.append_eq_nil_iff, hmembers, getD_map_eq_nil_iff, getD_map_eq_nil_iff]
  simp only [checkDns_eq_nil_iff, checkRoute_eq_nil_iff]
  exact ⟨fun h => ⟨h.1.1, h.1.2, h.2⟩, fun h => ⟨⟨h.members, h.dns⟩, h.route⟩⟩

/-! ## The document that offers nodes -/

@[simp] theorem members_toOutbound (p : Params) (tag server : String) (port : UInt16) :
    (p.toOutbound tag server port).members = none := by
  cases p <;> rfl

section OfNodes

variable {nodes : List NodeEntry} {settings : EngineSettings}

theorem outboundTags_ofNodes :
    (Document.ofNodes nodes settings).outboundTags =
      nodes.map (·.tag) ++ (groupOutbounds (nodes.map (·.tag)) ++ builtinOutbounds).map (·.tag) := by
  simp [Document.outboundTags, Document.ofNodes, NodeEntry.toOutbound, Function.comp_def]

/-- The tags that the sections of a document refer to are there even without nodes. -/
theorem mem_outboundTags_ofNodes {tag : String} (h : tag ∈ [proxyTag, directTag, dnsTag]) :
    tag ∈ (Document.ofNodes nodes settings).outboundTags := by
  rw [outboundTags_ofNodes]
  refine List.mem_append_right _ ?_
  by_cases hnodes : nodes.map (·.tag) = []
  · rw [hnodes]
    revert h tag
    decide
  · rw [map_tag_groups hnodes]
    revert h tag
    decide

/-- The members of the groups are the nodes, and what the document defines besides them. -/
theorem mem_tags_of_mem_groups {tags : List String} {o : Outbound} {member : String}
    (ho : o ∈ groupOutbounds tags ++ builtinOutbounds) (hmember : member ∈ o.members.getD []) :
    member ∈ tags ++ (groupOutbounds tags ++ builtinOutbounds).map (·.tag) := by
  unfold groupOutbounds at ho ⊢
  split_ifs at ho ⊢ with hempty
  · simp only [builtinOutbounds, List.cons_append, List.nil_append, List.mem_cons, List.not_mem_nil, or_false] at ho
    rcases ho with rfl | rfl | rfl | rfl
    · simp only [Option.getD_some, List.mem_singleton] at hmember
      simp [hmember, builtinOutbounds]
    all_goals exact absurd hmember List.not_mem_nil
  · simp only [builtinOutbounds, List.cons_append, List.nil_append, List.mem_cons, List.not_mem_nil, or_false] at ho
    rcases ho with rfl | rfl | rfl | rfl | rfl
    · simp only [Option.getD_some, List.mem_cons, List.mem_append, List.not_mem_nil, or_false] at hmember
      rcases hmember with rfl | hmember | rfl
      · simp
      · exact List.mem_append_left _ hmember
      · simp [builtinOutbounds]
    · exact List.mem_append_left _ (by simpa using hmember)
    all_goals exact absurd hmember List.not_mem_nil

/-- The document that offers nodes refers to nothing that it does not define, whatever the nodes are. -/
theorem resolved_ofNodes : (Document.ofNodes nodes settings).Resolved where
  members o ho member hmember := by
    rw [Document.ofNodes, List.append_assoc, List.mem_append] at ho
    rcases ho with ho | ho
    · -- the outbound of a node is no group
      obtain ⟨n, -, rfl⟩ := List.mem_map.1 ho
      simp [NodeEntry.toOutbound] at hmember
    · rw [outboundTags_ofNodes]
      exact mem_tags_of_mem_groups ho hmember
  dns s hs := by
    obtain rfl : dnsSection = s := by
      simp only [Document.ofNodes, Option.mem_def] at hs
      split_ifs at hs
      exact Option.some.inj hs
    refine ⟨fun server hserver => ?_, by decide, by decide⟩
    simp only [dnsSection, List.mem_cons, List.not_mem_nil, or_false] at hserver
    rcases hserver with rfl | rfl | rfl | rfl
    · exact ⟨by decide, by simp⟩
    all_goals
      refine ⟨by decide, fun name hname => mem_outboundTags_ofNodes ?_⟩
      obtain rfl := Option.some.inj hname
      decide
  route r hr := by
    obtain rfl : routeSection = r := by
      simp only [Document.ofNodes, Option.mem_def] at hr
      split_ifs at hr
      exact Option.some.inj hr
    refine ⟨fun rule hrule => mem_outboundTags_ofNodes ?_, fun name hname => mem_outboundTags_ofNodes ?_⟩
    · simp only [routeSection, List.mem_cons, List.not_mem_nil, or_false] at hrule
      rcases hrule with rfl | rfl | rfl | rfl
      all_goals decide
    · obtain rfl := Option.some.inj hname
      decide

theorem valid_validate_iff {d : Document} : d.validate.valid = true ↔ d.errors = [] := List.isEmpty_iff

theorem one_le_port_iff {port : UInt16} : 1 ≤ port ↔ port ≠ 0 := by
  have hone : (1 : UInt16).toNat = 1 := rfl
  rw [UInt16.le_iff_toNat_le, hone, ← toNat_ne_zero_iff]
  omega

/-- **Which lists of nodes make a valid document.** Let the parameters of each node be some that were
accepted. Then the document that offers the nodes is valid exactly if each has a tag, no two have one,
none has a reserved one, each has a host and a port, and there is a port to listen at. It is never
warned about, be it valid or not. -/
theorem validate_ofNodes (nodes : List NodeEntry) (settings : EngineSettings)
    (haccepted : ∀ n ∈ nodes, ∃ protocol raw, Params.parse protocol raw = .ok n.params) :
    ((Document.ofNodes nodes settings).validate.valid = true ↔
      (∀ n ∈ nodes, n.tag ≠ "") ∧ (nodes.map (·.tag)).Nodup ∧ (∀ n ∈ nodes, n.tag ∉ reservedTags) ∧
      (∀ n ∈ nodes, Net.isHost n.server = true) ∧ (∀ n ∈ nodes, 1 ≤ n.port) ∧ 1 ≤ settings.localPort) ∧
    (Document.ofNodes nodes settings).validate.warnings = [] := by
  have hparams : ∀ n ∈ nodes, n.params.Offerable := by
    intro n hn
    obtain ⟨protocol, raw, hparse⟩ := haccepted n hn
    exact Params.parse_yields protocol raw n.params hparse
  refine ⟨?_, warnings_eq_nil_iff.2 resolved_ofNodes⟩
  rw [valid_validate_iff, errors_ofNodes_eq_nil_iff hparams]
  simp only [one_le_port_iff, forall_and]
  constructor
  · rintro ⟨⟨htag, hreserved⟩, hnodup, ⟨hhost, hport⟩, hlocal⟩
    exact ⟨htag, hnodup, hreserved, hhost, hport, hlocal⟩
  · rintro ⟨htag, hnodup, hreserved, hhost, hport, hlocal⟩
    exact ⟨⟨htag, hreserved⟩, hnodup, ⟨hhost, hport⟩, hlocal⟩

end OfNodes

/-- Two nodes of one tag. -/
def sampleEntries : List NodeEntry :=
  [{ tag := "a", server := "127.0.0.1", port := 10000, params := .trojan ⟨"secret", {}, none⟩ },
   { tag := "a", server := "node.example.com", port := 443
     params := .vmess ⟨"aaaaaaaa-0000-4000-8000-000000000001", 0, "auto", none, none⟩ }]

theorem validate_ofNodes_sample :
    (∀ n ∈ sampleEntries, ∃ protocol raw, Params.parse protocol raw = .ok n.params) ∧
    ((Document.ofNodes sampleEntries {}).validate.valid = true ↔
      (∀ n ∈ sampleEntries, n.tag ≠ "") ∧ (sampleEntries.map (·.tag)).Nodup ∧
      (∀ n ∈ sampleEntries, n.tag ∉ reservedTags) ∧ (∀ n ∈ sampleEntries, Net.isHost n.server = true) ∧
      (∀ n ∈ sampleEntries, 1 ≤ n.port) ∧ 1 ≤ ({} : EngineSettings).localPort) ∧
    (Document.ofNodes sampleEntries {}).validate.warnings = [] := by
  have haccepted : ∀ n ∈ sampleEntries, ∃ protocol raw, Params.parse protocol raw = .ok n.params := by
    intro n hn
    simp only [sampleEntries, List.mem_cons, List.not_mem_nil, or_false] at hn
    rcases hn with rfl | rfl
    · exact ⟨"trojan", [("password", .str "secret")], rfl⟩
    · exact ⟨"vmess", [("uuid", .str "aaaaaaaa-0000-4000-8000-000000000001")], rfl⟩
  exact ⟨haccepted, validate_ofNodes sampleEntries {} haccepted⟩

/-- Their tags are what is wrong with them. -/
example : (Document.ofNodes sampleEntries {}).validate.errors.map (·.rule) = [.unique] := by decide +kernel

end ProxyFleet.Engine

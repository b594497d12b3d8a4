import Mathlib.Data.List.Nodup
import ProxyFleet.Engine.Assembly
import ProxyFleet.Proofs.Protocol.Accepted

/-!
# When a document is valid

Each check finds nothing exactly if what it checks is as it should be. Put together, these say when
a whole document is valid, and when the one that offers a list of nodes is.

* `Outbound.KindFields` : an outbound has the fields that its kind asks for;
* `Outbound.WellFormed` : nothing is wrong with an outbound, its tag apart;
* `outboundErrors_eq_nil_iff` : when nothing is found about the outbounds of a document;
* `errors_ofNodes_eq_nil_iff` : when nothing is found about the document that offers nodes.
-/

namespace ProxyFleet.Engine

set_option autoImplicit false

/-! ## Checks of one value -/

theorem checkPort_eq_nil_iff {place : Place} {field : String} {port : Int} :
    checkPort place field port = [] ↔ 1 ≤ port ∧ port ≤ 65535 := by
  unfold checkPort
  split_ifs with h
  · simpa using h
  · simpa using h

theorem checkPresent_eq_nil_iff {place : Place} {field : String} {value : Option String} :
    checkPresent place field value = [] ↔ value.getD "" ≠ "" := by
  unfold checkPresent
  split_ifs with h
  · simpa using h
  · simpa using h

theorem checkListed_eq_nil_iff {place : Place} {what value : String} {allowed : List String} :
    checkListed place what value allowed = [] ↔ value ∈ allowed := by
  unfold checkListed
  split_ifs with h
  · simpa using h
  · simpa using h

theorem checkTag_eq_nil_iff {place : Nat → String → Place} {list : String} {tags : List String} {i : Nat}
    {tag : String} : checkTag place list tags i tag = [] ↔ tag ≠ "" ∧ i ≤ tags.idxOf tag := by
  unfold checkTag
  simp only [String.isEmpty_iff]
  split_ifs with hempty hfirst
  · simp [hempty]
  · simp [hfirst]
  · simpa [hempty] using hfirst

/-- The places of a list at which a check finds nothing are all places if it finds nothing at all. -/
theorem flatten_mapIdx_eq_nil_iff {α β : Type} {f : Nat → α → List β} {l : List α} :
    (l.mapIdx f).flatten = [] ↔ ∀ (i : Nat) (h : i < l.length), f i l[i] = [] := by
  simp only [List.flatten_eq_nil_iff, List.mem_iff_getElem, List.length_mapIdx, List.getElem_mapIdx]
  constructor
  · intro h i hi
    exact h _ ⟨i, hi, rfl⟩
  · rintro h _ ⟨i, hi, rfl⟩
    exact h i hi

/-- The tags of a list are in order if none is empty and none occurs twice. -/
theorem checkTag_all_eq_nil_iff {place : Nat → String → Place} {list : String} {tags : List String} :
    (∀ (i : Nat) (h : i < tags.length), checkTag place list tags i tags[i] = []) ↔ "" ∉ tags ∧ tags.Nodup := by
  simp only [checkTag_eq_nil_iff]
  constructor
  · intro h
    refine ⟨fun hmem => ?_, List.pairwise_iff_getElem.2 fun i j hi hj hij => ?_⟩
    · obtain ⟨i, hi, heq⟩ := List.getElem_of_mem hmem
      exact (h i hi).1 heq
    · -- The first place of a tag that occurs again is before the second one.
      have hbefore : tags[i] ≠ tags[j] := by
        simpa using List.not_of_lt_findIdx (Nat.lt_of_lt_of_le hij (h j hj).2)
      exact hbefore
  · rintro ⟨hempty, hnodup⟩ i hi
    exact ⟨fun heq => hempty (heq ▸ List.getElem_mem hi), Nat.le_of_eq (hnodup.idxOf_getElem i hi).symm⟩

/-! ## Outbounds -/

theorem isHost_empty : Net.isHost "" = false := by decide

/-- A proxy can be reached: it has a host and a port. -/
def Outbound.Reachable (o : Outbound) : Prop :=
  Net.isHost (o.server.getD "") = true ∧ ∃ port, o.serverPort = some port ∧ 1 ≤ port ∧ port ≤ 65535

theorem checkEndpoint_eq_nil_iff {i : Nat} {o : Outbound} : checkEndpoint i o = [] ↔ o.Reachable := by
  unfold checkEndpoint Outbound.Reachable
  dsimp only
  rw [List.append_eq_nil_iff]
  refine and_congr ?_ ?_
  · split_ifs with hempty hhost
    · rw [String.isEmpty_iff] at hempty
      simp [hempty, isHost_empty]
    · simpa using hhost
    · simpa using hhost
  · cases o.serverPort with
    | none => simp
    | some port => simp [checkPort_eq_nil_iff]

theorem checkUuid_eq_nil_iff {i : Nat} {o : Outbound} :
    checkUuid i o = [] ↔ Text.isUuid (o.uuid.getD "") = true := by
  unfold checkUuid
  dsimp only
  split_ifs with hempty huuid
  · rw [String.isEmpty_iff] at hempty
    simp [hempty, isUuid_empty]
  · simpa using huuid
  · simpa using huuid

theorem checkPassword_eq_nil_iff {i : Nat} {o : Outbound} :
    checkPassword i o = [] ↔ o.password.getD "" ≠ "" := checkPresent_eq_nil_iff

/-- An outbound has the fields that its kind asks for, with values that they may have. -/
@[mk_iff]
structure Outbound.KindFields (o : Outbound) : Prop where
  uuid : o.kind ∈ ["vmess", "vless", "tuic"] → Text.isUuid (o.uuid.getD "") = true
  security : o.kind = "vmess" → ∀ s ∈ o.security, s ∈ vmessSecurities
  flow : o.kind = "vless" → ∀ s ∈ o.flow, s ∈ vlessFlows
  password : o.kind ∈ ["trojan", "shadowsocks", "hysteria2", "anytls"] → o.password.getD "" ≠ ""
  tls : o.kind = "trojan" → o.tls.any (·.enabled) = true
  method : o.kind = "shadowsocks" → o.method.getD "" ∈ shadowsocksMethods
  auth : o.kind = "hysteria" → ((Json.field? o.extra "auth_str").bind Json.str?).getD "" ≠ ""

theorem checkKindFields_eq_nil_iff {i : Nat} {o : Outbound} : checkKindFields i o = [] ↔ o.KindFields := by
  rw [Outbound.kindFields_iff]
  unfold checkKindFields
  split_ifs with hvmess hvless htuic htrojan htls hss hpassword hauth
  · cases o.security with
    | none => simp [hvmess, checkUuid_eq_nil_iff]
    | some s => simp [hvmess, checkUuid_eq_nil_iff, checkListed_eq_nil_iff]
  · cases o.flow with
    | none => simp [hvless, checkUuid_eq_nil_iff]
    | some s => simp [hvless, checkUuid_eq_nil_iff, checkListed_eq_nil_iff]
  · simp [htuic, checkUuid_eq_nil_iff]
  · simp [htrojan, htls, checkPassword_eq_nil_iff]
  · simp [htrojan, htls]
  · -- The empty text is no method, so that a method that is listed was given.
    have hunlisted : "" ∉ shadowsocksMethods := by decide
    by_cases hempty : o.method.getD "" = ""
    · simp [hss, hempty, hunlisted]
    · simp [hss, hempty, checkListed_eq_nil_iff, checkPassword_eq_nil_iff, and_comm]
  · rcases hpassword with hkind | hkind
    · simp [hkind, checkPassword_eq_nil_iff]
    · simp [hkind, checkPassword_eq_nil_iff]
  · simp [hauth, checkPresent_eq_nil_iff]
  · simp_all

/-- Nothing is wrong with an outbound, its tag apart. -/
structure Outbound.WellFormed (o : Outbound) : Prop where
  kind : o.kind ∈ outboundKinds
  reachable : o.kind ∈ proxyKinds → o.Reachable
  fields : o.KindFields

theorem checkOutbound_eq_nil_iff {tags : List String} {i : Nat} {o : Outbound} :
    checkOutbound tags i o = [] ↔ checkTag .outbound "outbounds" tags i o.tag = [] ∧ o.WellFormed := by
  unfold checkOutbound
  rw [List.append_eq_nil_iff]
  refine and_congr_right fun _ => ?_
  split_ifs with hkind hproxy
  · rw [List.contains_iff_mem] at hkind hproxy
    rw [List.append_eq_nil_iff, checkEndpoint_eq_nil_iff, checkKindFields_eq_nil_iff]
    exact ⟨fun h => ⟨hkind, fun _ => h.1, h.2⟩, fun h => ⟨h.reachable hproxy, h.fields⟩⟩
  · rw [List.contains_iff_mem] at hkind hproxy
    rw [List.nil_append, checkKindFields_eq_nil_iff]
    exact ⟨fun h => ⟨hkind, fun hp => absurd hp hproxy, h⟩, fun h => h.fields⟩
  · rw [List.contains_iff_mem] at hkind
    simpa using fun h => hkind h.kind

/-- When nothing is found about the outbounds of a document. -/
theorem outboundErrors_eq_nil_iff {d : Document} :
    d.outboundErrors = [] ↔
      d.outbounds ≠ [] ∧ "" ∉ d.outboundTags ∧ d.outboundTags.Nodup ∧ ∀ o ∈ d.outbounds, o.WellFormed := by
  unfold Document.outboundErrors
  split_ifs with hempty
  · rw [List.isEmpty_iff] at hempty
    simp [hempty]
  · rw [List.isEmpty_iff] at hempty
    have htags : (∀ i (hi : i < d.outboundTags.length),
        checkTag .outbound "outbounds" d.outboundTags i d.outboundTags[i] = []) ↔
        "" ∉ d.outboundTags ∧ d.outboundTags.Nodup := checkTag_all_eq_nil_iff
    rw [flatten_mapIdx_eq_nil_iff, ← and_assoc (a := "" ∉ _), ← htags]
    simp only [checkOutbound_eq_nil_iff, ne_eq, hempty, not_false_eq_true, true_and]
    constructor
    · intro h
      refine ⟨fun i hi => ?_, fun o ho => ?_⟩
      · have hi' : i < d.outbounds.length := by simpa [Document.outboundTags] using hi
        simpa [Document.outboundTags] using (h i hi').1
      · obtain ⟨i, hi, rfl⟩ := List.getElem_of_mem ho
        exact (h i hi).2
    · rintro ⟨htag, hwell⟩ i hi
      have hi' : i < d.outboundTags.length := by simpa [Document.outboundTags] using hi
      exact ⟨by simpa [Document.outboundTags] using htag i hi', hwell _ (List.getElem_mem hi)⟩

/-! ## The document that offers nodes -/

/-- An outbound that is no proxy has nothing but its tag and its members to get wrong. -/
theorem Outbound.wellFormed_of_kind {o : Outbound}
    (h : o.kind ∈ ["direct", "block", "dns", "selector", "urltest"]) : o.WellFormed := by
  simp only [List.mem_cons, List.not_mem_nil, or_false] at h
  rcases h with h | h | h | h | h
  all_goals
    refine ⟨by simp [h, outboundKinds], by simp [h, proxyKinds], ?_⟩
    simp [Outbound.kindFields_iff, h]

section ToOutbound

variable (p : Params) (tag server : String) (port : UInt16)

@[simp] theorem kind_toOutbound : (p.toOutbound tag server port).kind = p.protocol.name := by
  cases p <;> rfl

@[simp] theorem tag_toOutbound : (p.toOutbound tag server port).tag = tag := by
  cases p <;> rfl

@[simp] theorem server_toOutbound : (p.toOutbound tag server port).server = some server := by
  cases p <;> rfl

@[simp] theorem serverPort_toOutbound : (p.toOutbound tag server port).serverPort = some (port.toNat : Int) := by
  cases p <;> rfl

end ToOutbound

/-- An engine takes the outbound of parameters that it takes. -/
theorem kindFields_toOutbound {p : Params} (hp : p.Offerable) (tag server : String) (port : UInt16) :
    (p.toOutbound tag server port).KindFields := by
  rw [Outbound.kindFields_iff, kind_toOutbound]
  cases p with
  | anytls v | hysteria2 v =>
    simp only [Params.Offerable] at hp
    simpa [Params.protocol, Protocol.name, Params.toOutbound] using hp
  | hysteria v =>
    simp only [Params.Offerable] at hp
    simpa [Params.protocol, Protocol.name, Params.toOutbound, Json.field?, Json.str?] using hp
  | shadowsocks v =>
    simp only [Params.Offerable] at hp
    simpa [Params.protocol, Protocol.name, Params.toOutbound, and_comm] using hp
  | trojan v =>
    simp only [Params.Offerable] at hp
    simpa [Params.protocol, Protocol.name, Params.toOutbound, Params.tls?, Params.storedTls?] using hp
  | tuic v =>
    simp only [Params.Offerable] at hp
    simpa [Params.protocol, Protocol.name, Params.toOutbound] using hp
  | vless v =>
    simp only [Params.Offerable] at hp
    simpa [Params.protocol, Protocol.name, Params.toOutbound] using ⟨hp.1, fun _ => hp.2⟩
  | vmess v =>
    simp only [Params.Offerable] at hp
    simpa [Params.protocol, Protocol.name, Params.toOutbound] using hp

theorem name_mem_proxyKinds (p : Protocol) : p.name ∈ proxyKinds := by
  cases p <;> decide

theorem name_mem_outboundKinds (p : Protocol) : p.name ∈ outboundKinds := by
  cases p <;> decide

theorem toNat_ne_zero_iff {port : UInt16} : port.toNat ≠ 0 ↔ port ≠ 0 := by
  rw [ne_eq, ne_eq, ← UInt16.toNat_inj]
  rfl

/-- A port that is not zero is in the range of ports. -/
theorem port_bounds_iff {port : UInt16} : (1 ≤ (port.toNat : Int) ∧ (port.toNat : Int) ≤ 65535) ↔ port ≠ 0 := by
  have hbound := port.toNat_lt
  rw [← toNat_ne_zero_iff]
  omega

/-- The outbound of a node whose parameters an engine takes needs a host and a port. -/
theorem NodeEntry.wellFormed_iff {n : NodeEntry} (hp : n.params.Offerable) :
    n.toOutbound.WellFormed ↔ Net.isHost n.server = true ∧ n.port ≠ 0 := by
  have hreach : n.toOutbound.Reachable ↔ Net.isHost n.server = true ∧ n.port ≠ 0 := by
    rw [← port_bounds_iff]
    simp [Outbound.Reachable, NodeEntry.toOutbound]
  rw [← hreach]
  refine ⟨fun h => h.reachable ?_, fun h => ⟨?_, fun _ => h, kindFields_toOutbound hp _ _ _⟩⟩
  · rw [NodeEntry.toOutbound, kind_toOutbound]
    exact name_mem_proxyKinds _
  · rw [NodeEntry.toOutbound, kind_toOutbound]
    exact name_mem_outboundKinds _

/-- Nothing is wrong with the local listener if it has a port. -/
theorem inboundErrors_ofNodes {nodes : List NodeEntry} {settings : EngineSettings} :
    (Document.ofNodes nodes settings).inboundErrors = [] ↔ settings.localPort ≠ 0 := by
  have hlisten : Net.isIPAddress "127.0.0.1" = true := by decide
  rw [← port_bounds_iff]
  simp [Document.inboundErrors, Document.ofNodes, mixedInbound, checkInbound, checkListed_eq_nil_iff,
    checkTag_eq_nil_iff, checkPort_eq_nil_iff, hlisten, inboundKinds]

/-- The tags besides those of the nodes; without nodes there is no group that takes the fastest. -/
theorem map_tag_groups {tags : List String} (h : tags ≠ []) :
    (groupOutbounds tags ++ builtinOutbounds).map (·.tag) = reservedTags := by
  rw [groupOutbounds, if_neg (by simpa using h)]
  rfl

theorem wellFormed_of_mem_groups {tags : List String} {o : Outbound}
    (h : o ∈ groupOutbounds tags ++ builtinOutbounds) : o.WellFormed := by
  refine Outbound.wellFormed_of_kind ?_
  rcases List.mem_append.1 h with h | h
  · unfold groupOutbounds at h
    split_ifs at h
    · simp only [List.mem_singleton] at h
      simp [h]
    · simp only [List.mem_cons, List.not_mem_nil, or_false] at h
      rcases h with rfl | rfl
      · simp
      · simp
  · simp only [builtinOutbounds, List.mem_cons, List.not_mem_nil, or_false] at h
    rcases h with rfl | rfl | rfl
    · simp
    · simp
    · simp

/-- The tags of the document are in order if those of the nodes are, and none of them is reserved. -/
theorem tags_ofNodes_iff {nodes : List NodeEntry} {settings : EngineSettings} :
    "" ∉ (Document.ofNodes nodes settings).outboundTags ∧ (Document.ofNodes nodes settings).outboundTags.Nodup ↔
      (∀ n ∈ nodes, n.tag ≠ "" ∧ n.tag ∉ reservedTags) ∧ (nodes.map (·.tag)).Nodup := by
  have htags : (Document.ofNodes nodes settings).outboundTags =
      nodes.map (·.tag) ++ (groupOutbounds (nodes.map (·.tag)) ++ builtinOutbounds).map (·.tag) := by
    simp [Document.outboundTags, Document.ofNodes, NodeEntry.toOutbound, Function.comp_def]
  by_cases hnodes : nodes = []
  · subst hnodes
    rw [htags]
    simp
    decide
  · rw [htags, map_tag_groups (by simpa using hnodes), List.mem_append, List.nodup_append']
    have hreserved : "" ∉ reservedTags ∧ reservedTags.Nodup := by decide
    simp only [hreserved, or_false, List.mem_map, not_exists, not_and, List.disjoint_left,
      forall_exists_index, and_imp, forall_apply_eq_imp_iff₂, true_and]
    exact ⟨fun h => ⟨fun n hn => ⟨h.1 n hn, h.2.2 n hn⟩, h.2.1⟩,
      fun h => ⟨fun n hn => (h.1 n hn).1, h.2, fun n hn => (h.1 n hn).2⟩⟩

/-- When nothing is found about the document that offers nodes whose parameters were accepted. -/
theorem errors_ofNodes_eq_nil_iff {nodes : List NodeEntry} {settings : EngineSettings}
    (hparams : ∀ n ∈ nodes, n.params.Offerable) :
    (Document.ofNodes nodes settings).errors = [] ↔
      (∀ n ∈ nodes, n.tag ≠ "" ∧ n.tag ∉ reservedTags) ∧ (nodes.map (·.tag)).Nodup ∧
      (∀ n ∈ nodes, Net.isHost n.server = true ∧ n.port ≠ 0) ∧ settings.localPort ≠ 0 := by
  have houtbounds : (Document.ofNodes nodes settings).outbounds =
      nodes.map NodeEntry.toOutbound ++ (groupOutbounds (nodes.map (·.tag)) ++ builtinOutbounds) :=
    List.append_assoc _ _ _
  have hnonempty : (Document.ofNodes nodes settings).outbounds ≠ [] := by
    rw [houtbounds]
    simp [builtinOutbounds]
  have hwell : (∀ o ∈ (Document.ofNodes nodes settings).outbounds, o.WellFormed) ↔
      ∀ n ∈ nodes, Net.isHost n.server = true ∧ n.port ≠ 0 := by
    rw [houtbounds, List.forall_mem_append, and_iff_left fun o ho => wellFormed_of_mem_groups ho,
      List.forall_mem_map]
    exact forall₂_congr fun n hn => NodeEntry.wellFormed_iff (hparams n hn)
  rw [Document.errors, List.append_eq_nil_iff, outboundErrors_eq_nil_iff, inboundErrors_ofNodes,
    and_iff_right hnonempty, hwell, ← and_assoc (a := "" ∉ _), tags_ofNodes_iff]
  simp only [and_assoc]

end ProxyFleet.Engine

import ProxyFleet.Proofs.Engine.Codec
import ProxyFleet.Proofs.Engine.Validity

/-!
# The document that offers nodes is read as it was written

What nodes and groups have further fields for is listed in `furtherNames`, in order; an outbound has
some of these, in that order, and none of them is the name of a field that every outbound may have.

* `keys_toOutbound`, `plain_toOutbound` : the further fields of a node's outbound;
* `settled_ofNodes` : the document that offers nodes is settled, whatever the nodes are;
* `read_ofNodes` : its text is read as the document.
-/

namespace ProxyFleet.Engine

set_option autoImplicit false

/-! ## Further fields -/

/-- The names of the further fields of nodes and of groups, in order. -/
def furtherNames : List String :=
  ["auth_str", "congestion_control", "default", "down_mbps", "interval", "obfs", "plugin", "plugin_opts",
   "tolerance", "udp_relay_mode", "up_mbps", "url"]

/-- A value that is in order already, and can be read from its text. -/
structure Plain (v : Json) : Prop where
  sorted : v.sorted = v
  legible : Json.Legible 3 v

theorem plain_str (s : String) : Plain (.str s) := ⟨Json.sorted_str s, Json.legible_str s⟩

theorem plain_u32 (n : UInt32) : Plain (.u32 n) := ⟨Json.sorted_num _, Json.legible_u32 n⟩

/-- The obfuscation of hysteria2. -/
theorem plain_salamander (key : String) : Plain (.obj [("password", .str key), ("type", .str "salamander")]) := by
  refine ⟨?_, by simp [Json.Legible]⟩
  have hordered : Keyed.Ordered [("password", Json.str key), ("type", .str "salamander")] := by
    simp only [Keyed.Ordered, List.pairwise_pair]
    decide
  rw [Json.sorted_obj]
  exact congrArg Json.obj (Keyed.sort_eq_self hordered)

section Optional

variable {α : Type} {name : String} {write : α → Json}

theorem keys_toList_sublist (a? : Option α) :
    ((a?.map fun a => (name, write a)).toList.map (·.1)).Sublist [name] := by
  cases a? with
  | none => exact List.nil_sublist _
  | some a => exact List.Sublist.refl _

theorem plain_of_mem_toList {a? : Option α} (h : ∀ a, Plain (write a)) :
    ∀ f ∈ (a?.map fun a => (name, write a)).toList, Plain f.2 := by
  cases a? with
  | none => simp
  | some a => simpa using h a

end Optional

/-- Fields of some of these names, in their order, are further ones of an outbound. -/
theorem further_of_sublist {extra : JsonFields} (hkeys : (extra.map (·.1)).Sublist furtherNames)
    (hplain : ∀ f ∈ extra, Plain f.2) : Json.Further outboundNames extra where
  ordered := by
    have hnames : furtherNames.Pairwise (· < ·) := by decide
    exact List.pairwise_map.1 (hnames.sublist hkeys)
  sorted f hf := (hplain f hf).sorted
  unknown f hf := by
    have hunknown : ∀ name ∈ furtherNames, name ∉ outboundNames := by decide
    exact hunknown f.1 (hkeys.subset (List.mem_map.2 ⟨f, hf, rfl⟩))

/-! ## The outbound of a node -/

section ToOutbound

variable (p : Params) (tag server : String) (port : UInt16)

theorem keys_toOutbound : ((p.toOutbound tag server port).extra.map (·.1)).Sublist furtherNames := by
  cases p with
  | hysteria v =>
    simp only [Params.toOutbound, List.map_append, List.map_cons, List.map_nil]
    refine (((List.Sublist.refl _).append (keys_toList_sublist v.obfs)).append (List.Sublist.refl _)).trans ?_
    decide
  | hysteria2 v =>
    simp only [Params.toOutbound, List.map_append]
    refine (((keys_toList_sublist v.downMbps).append (keys_toList_sublist v.obfsPassword)).append
      (keys_toList_sublist v.upMbps)).trans ?_
    decide
  | shadowsocks v =>
    simp only [Params.toOutbound, List.map_append]
    refine ((keys_toList_sublist v.plugin).append (keys_toList_sublist v.pluginOpts)).trans ?_
    decide
  | tuic v =>
    simp only [Params.toOutbound, List.map_cons, List.map_nil]
    decide
  | _ => exact List.nil_sublist _

theorem plain_toOutbound : ∀ f ∈ (p.toOutbound tag server port).extra, Plain f.2 := by
  cases p with
  | hysteria v =>
    simp only [Params.toOutbound, List.forall_mem_append, List.forall_mem_cons]
    exact ⟨⟨⟨plain_str _, plain_u32 _, by simp⟩, plain_of_mem_toList plain_str⟩, plain_u32 _, by simp⟩
  | hysteria2 v =>
    simp only [Params.toOutbound, List.forall_mem_append]
    exact ⟨⟨plain_of_mem_toList plain_u32, plain_of_mem_toList plain_salamander⟩, plain_of_mem_toList plain_u32⟩
  | shadowsocks v =>
    simp only [Params.toOutbound, List.forall_mem_append]
    exact ⟨plain_of_mem_toList plain_str, plain_of_mem_toList plain_str⟩
  | tuic v =>
    simp only [Params.toOutbound, List.forall_mem_cons]
    exact ⟨plain_str _, plain_str _, by simp⟩
  | _ => simp [Params.toOutbound]

theorem transport_toOutbound :
    (p.toOutbound tag server port).transport = p.transport?.map OutboundTransport.ofTransport := by
  cases p with
  | _ => rfl

theorem settled_ofTransport (t : Transport) : (OutboundTransport.ofTransport t).Settled := by
  unfold OutboundTransport.Settled OutboundTransport.ofTransport Keyed.Ordered
  cases t.network with
  | ws =>
    -- of the hosts only the first one becomes a header
    cases t.firstHost? with
    | none => exact List.Pairwise.nil
    | some host => exact List.pairwise_singleton _ _
  | _ => exact List.Pairwise.nil

theorem sixtyFourBits_port : SixtyFourBits port.toNat := by
  have hlt := port.toNat_lt
  have hpow : (Nat.pow 2 63 : Nat) = 2 ^ 63 := rfl
  constructor
  · omega
  · omega

theorem settled_toOutbound : (p.toOutbound tag server port).Settled where
  port := by simpa using sixtyFourBits_port port
  transport t ht := by
    rw [transport_toOutbound] at ht
    obtain ⟨t', -, rfl⟩ := Option.map_eq_some_iff.1 ht
    exact settled_ofTransport t'
  extra := further_of_sublist (keys_toOutbound p tag server port) (plain_toOutbound p tag server port)
  legible f hf := (plain_toOutbound p tag server port f hf).legible

end ToOutbound

/-! ## The rest of the document -/

/-- An outbound that is no proxy has further fields at most. -/
theorem settled_of_extra {o : Outbound} (hport : o.serverPort = none) (htransport : o.transport = none)
    (hkeys : (o.extra.map (·.1)).Sublist furtherNames) (hplain : ∀ f ∈ o.extra, Plain f.2) : o.Settled where
  port := by simp [hport]
  transport := by simp [htransport]
  extra := further_of_sublist hkeys hplain
  legible f hf := (hplain f hf).legible

theorem settled_of_mem_groups {tags : List String} {o : Outbound} (h : o ∈ groupOutbounds tags ++ builtinOutbounds) :
    o.Settled := by
  have hbare : ∀ {o : Outbound}, o.serverPort = none → o.transport = none → o.extra = [] → o.Settled :=
    fun hport htransport hextra => settled_of_extra hport htransport (by simp [hextra]) (by simp [hextra])
  unfold groupOutbounds at h
  split_ifs at h
  · simp only [builtinOutbounds, List.cons_append, List.nil_append, List.mem_cons, List.not_mem_nil, or_false] at h
    rcases h with rfl | rfl | rfl | rfl
    all_goals exact hbare rfl rfl rfl
  · simp only [builtinOutbounds, List.cons_append, List.nil_append, List.mem_cons, List.not_mem_nil, or_false] at h
    rcases h with rfl | rfl | rfl | rfl | rfl
    · refine settled_of_extra rfl rfl ?_ (by simpa using plain_str autoTag)
      simp only [List.map_cons, List.map_nil]
      decide
    · refine settled_of_extra rfl rfl ?_ ?_
      · simp only [List.map_cons, List.map_nil]
        decide
      · simp only [List.forall_mem_cons]
        exact ⟨plain_str _, plain_u32 50, plain_str _, by simp⟩
    all_goals exact hbare rfl rfl rfl

theorem settled_mixedInbound (port : UInt16) : (mixedInbound port).Settled where
  port := by simpa [mixedInbound] using sixtyFourBits_port port
  extra := ⟨List.pairwise_singleton _ _, by simp [mixedInbound], by simp [mixedInbound]⟩
  legible := by simp [mixedInbound]

/-- The document that offers nodes is settled, whatever the nodes are. -/
theorem settled_ofNodes (nodes : List NodeEntry) (settings : EngineSettings) :
    (Document.ofNodes nodes settings).Settled where
  inbounds := by simpa [Document.ofNodes] using settled_mixedInbound settings.localPort
  outbounds o ho := by
    rw [Document.ofNodes, List.append_assoc, List.mem_append] at ho
    rcases ho with ho | ho
    · obtain ⟨n, -, rfl⟩ := List.mem_map.1 ho
      exact settled_toOutbound n.params n.tag n.server n.port
    · exact settled_of_mem_groups ho

/-- The text of the document that offers nodes is read as the document. -/
theorem read_ofNodes (nodes : List NodeEntry) (settings : EngineSettings) :
    ∃ v, Json.parse? (Document.ofNodes nodes settings).toJson.pretty = some v ∧
      Document.decoder v = .ok (Document.ofNodes nodes settings) :=
  Document.read_pretty (settled_ofNodes nodes settings)

end ProxyFleet.Engine

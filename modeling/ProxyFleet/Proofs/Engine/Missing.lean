import ProxyFleet.Proofs.Engine.References
import ProxyFleet.Proofs.Engine.Written

/-!
# A field that is missing

Take a field that its kind asks for from an outbound with which nothing is wrong. Then just that is found, and
at the place of the field: no other rule looks at the field, no other outbound or section at this one's fields,
and the group members that warnings are about are still there.

* `Field.RequiredBy` : the fields that outbounds of a kind have to have;
* `Outbound.without`, `Document.without` : what is left without a field; `toJson_without` is what this means for
  the document's text;
* `checkOutbound_without` : what is found about an outbound;
* `errors_without`, `warnings_without` : and about a document;
* `validate_without` : the document that offers nodes.
-/

namespace ProxyFleet.Engine

set_option autoImplicit false

/-! ## Fields -/

/-- The fields that outbounds of some kind have to have. -/
inductive Field where
  | server
  | serverPort
  | uuid
  | password
  | method
  | auth
  | tls
  deriving DecidableEq

/-- The name of a field. -/
def Field.name : Field → String
  | server => "server"
  | serverPort => "server_port"
  | uuid => "uuid"
  | password => "password"
  | method => "method"
  | auth => "auth_str"
  | tls => "tls"

/-- The kinds of outbounds that have to have a field. -/
def Field.kinds : Field → List String
  | server | serverPort => proxyKinds
  | uuid => ["vmess", "vless", "tuic"]
  | password => ["trojan", "shadowsocks", "hysteria2", "anytls"]
  | method => ["shadowsocks"]
  | auth => ["hysteria"]
  | tls => ["trojan"]

/-- The outbound without a field. -/
def Outbound.without (o : Outbound) : Field → Outbound
  | .server => { o with server := none }
  | .serverPort => { o with serverPort := none }
  | .uuid => { o with uuid := none }
  | .password => { o with password := none }
  | .method => { o with method := none }
  | .auth => { o with extra := o.extra.filter (·.1 ≠ "auth_str") }
  | .tls => { o with tls := none }

/-- The document whose outbound at place `i` is without a field. -/
def Document.without (d : Document) (i : Nat) (field : Field) : Document :=
  { d with outbounds := d.outbounds.modify i (·.without field) }

/-- What is found about an outbound without the field. -/
def Field.finding (field : Field) (i : Nat) : Finding :=
  ⟨.outbound i field.name, "", .required,
    if field = .tls then "trojan requires tls to be enabled" else s!"{field.name} is required"⟩

/-! ## An outbound without a field -/

section Outbound

variable {o : Outbound} {field : Field}

@[simp] theorem kind_without : (o.without field).kind = o.kind := by
  cases field <;> rfl

@[simp] theorem tag_without : (o.without field).tag = o.tag := by
  cases field <;> rfl

@[simp] theorem members_without : (o.without field).members = o.members := by
  cases field <;> rfl

/-- Without a value for it, a record has no field of a name. -/
theorem filter_present (specs : List (String × Option Json)) (key : String) :
    (Json.present specs).filter (·.1 ≠ key) = Json.present (specs.map fun s => (s.1, if s.1 = key then none else s.2)) := by
  induction specs with
  | nil => rfl
  | cons s specs ih =>
    obtain ⟨name, v?⟩ := s
    cases v? with
    | none => simpa [Json.present] using ih
    | some v =>
      by_cases hname : name = key
      · simpa [Json.present, hname] using ih
      · simpa [Json.present, hname] using ih

/-- The object of an outbound without a field is that of the outbound without the field's name. -/
theorem toJson_without (ho : o.Orderly) {fields : JsonFields} (h : o.toJson = .obj fields) :
    (o.without field).toJson = .obj (fields.filter (·.1 ≠ field.name)) := by
  obtain rfl := Json.obj.inj h
  have hextra : field.name ∈ outboundNames → o.extra.filter (·.1 ≠ field.name) = o.extra := fun hname =>
    List.filter_eq_self.2 fun f hf => decide_eq_true fun heq => ho.extra.unknown f hf (heq ▸ hname)
  have hown : ∀ specs, (Json.present specs ++ o.extra).filter (·.1 ≠ field.name) =
      Json.present (specs.map fun s => (s.1, if s.1 = field.name then none else s.2)) ++
        o.extra.filter (·.1 ≠ field.name) := fun specs => by rw [List.filter_append, filter_present]
  refine Eq.trans ?_ (congrArg Json.obj (hown _).symm)
  cases field with
  | auth =>
    simp only [List.map_cons, List.map_nil, Field.name, String.reduceEq, if_false]
    rfl
  | server | serverPort | uuid | password | method | tls =>
    rw [hextra (by decide)]
    simp only [List.map_cons, List.map_nil, Field.name, String.reduceEq, if_true, if_false]
    rfl

theorem field?_filter_ne (fields : JsonFields) (key : String) :
    Json.field? (fields.filter (·.1 ≠ key)) key = none := by
  rw [Json.field?_eq_none_iff]
  simp

/-! ## What is found about an outbound -/

theorem checkEndpoint_without {i : Nat} (ho : o.Reachable) :
    checkEndpoint i (o.without field) = if field = .server ∨ field = .serverPort then [field.finding i] else [] := by
  have hnil : checkEndpoint i o = [] := checkEndpoint_eq_nil_iff.2 ho
  have hparts := List.append_eq_nil_iff.1 hnil
  cases field with
  | server => exact congrArg ([Field.server.finding i] ++ ·) hparts.2
  | serverPort => exact congrArg (· ++ [Field.serverPort.finding i]) hparts.1
  | uuid | password | method | auth | tls => exact hnil

theorem checkKindFields_without {i : Nat} (ho : o.KindFields) (hkind : o.kind ∈ field.kinds) :
    checkKindFields i (o.without field) = if field = .server ∨ field = .serverPort then [] else [field.finding i] := by
  have hnil : checkKindFields i o = [] := checkKindFields_eq_nil_iff.2 ho
  unfold checkKindFields at hnil ⊢
  rw [kind_without]
  -- the check of the field fails, and what the kind asks for besides is found as it was
  cases field with
  | server | serverPort => exact hnil
  | uuid =>
    simp only [Field.kinds, List.mem_cons, List.not_mem_nil, or_false] at hkind
    rcases hkind with h | h | h
    · simp only [h, if_true] at hnil ⊢
      exact congrArg ([Field.uuid.finding i] ++ ·) (List.append_eq_nil_iff.1 hnil).2
    · simp only [h, String.reduceEq, if_true, if_false] at hnil ⊢
      exact congrArg ([Field.uuid.finding i] ++ ·) (List.append_eq_nil_iff.1 hnil).2
    · simp only [h, String.reduceEq, if_true, if_false]
      rfl
  | password =>
    simp only [Field.kinds, List.mem_cons, List.not_mem_nil, or_false] at hkind
    rcases hkind with h | h | h | h
    · simp only [h, String.reduceEq, if_true, if_false] at hnil ⊢
      exact congrArg ([Field.password.finding i] ++ ·) (List.append_eq_nil_iff.1 hnil).2
    · simp only [h, String.reduceEq, if_true, if_false] at hnil ⊢
      exact congrArg (· ++ [Field.password.finding i]) (List.append_eq_nil_iff.1 hnil).1
    · simp only [h, String.reduceEq, if_true, if_false, true_or]
      rfl
    · simp only [h, String.reduceEq, if_true, if_false, or_true]
      rfl
  | method =>
    obtain h : o.kind = "shadowsocks" := by simpa [Field.kinds] using hkind
    simp only [h, String.reduceEq, if_true, if_false] at hnil ⊢
    exact congrArg ([Field.method.finding i] ++ ·) (List.append_eq_nil_iff.1 hnil).2
  | auth =>
    obtain h : o.kind = "hysteria" := by simpa [Field.kinds] using hkind
    have hgone : Json.field? (o.without .auth).extra "auth_str" = none := field?_filter_ne _ _
    simp only [h, hgone, String.reduceEq, if_true, if_false, or_false]
    rfl
  | tls =>
    obtain h : o.kind = "trojan" := by simpa [Field.kinds] using hkind
    simp only [h, String.reduceEq, if_true, if_false] at hnil ⊢
    exact congrArg (· ++ [Field.tls.finding i]) (List.append_eq_nil_iff.1 hnil).1

/-- Every outbound that has to have some field connects to a server. -/
theorem mem_proxyKinds_of_mem_kinds {kind : String} (h : kind ∈ field.kinds) : kind ∈ proxyKinds := by
  revert kind
  cases field with
  | _ => decide

theorem mem_outboundKinds_of_mem_proxyKinds : ∀ kind ∈ proxyKinds, kind ∈ outboundKinds := by decide

theorem checkOutbound_without {tags : List String} {i : Nat} (ho : checkOutbound tags i o = [])
    (hkind : o.kind ∈ field.kinds) : checkOutbound tags i (o.without field) = [field.finding i] := by
  obtain ⟨htag, hwell⟩ := checkOutbound_eq_nil_iff.1 ho
  have hproxy := mem_proxyKinds_of_mem_kinds hkind
  have hknown := mem_outboundKinds_of_mem_proxyKinds _ hproxy
  rw [checkOutbound, kind_without, tag_without, htag, List.nil_append, if_pos (List.contains_iff_mem.2 hknown),
    if_pos (List.contains_iff_mem.2 hproxy), checkEndpoint_without (hwell.reachable hproxy),
    checkKindFields_without hwell.fields hkind]
  split_ifs with hendpoint
  · rfl
  · rfl

end Outbound

/-! ## What is found about a document -/

/-- Where a check finds nothing in a list, it finds in the list with another element what is found there. -/
theorem flatten_mapIdx_modify {α β : Type} {f : Nat → α → List β} {g : α → α} {l : List α}
    (h : (l.mapIdx f).flatten = []) {i : Nat} (hi : i < l.length) :
    ((l.modify i g).mapIdx f).flatten = f i (g l[i]) := by
  induction l generalizing f i with
  | nil => exact absurd hi (Nat.not_lt_zero _)
  | cons a l ih =>
    rw [List.mapIdx_cons, List.flatten_cons, List.append_eq_nil_iff] at h
    cases i with
    | zero => rw [List.modify_zero_cons, List.mapIdx_cons, List.flatten_cons, h.2, List.append_nil]; rfl
    | succ i =>
      rw [List.modify_succ_cons, List.mapIdx_cons, List.flatten_cons, h.1, List.nil_append,
        ih h.2 (Nat.lt_of_succ_lt_succ hi)]
      rfl

section Document

variable {d : Document} {i : Nat} {field : Field}

theorem map_without {β : Type} {f : Outbound → β} (hf : ∀ o, f (o.without field) = f o) :
    (d.without i field).outbounds.map f = d.outbounds.map f := by
  refine List.ext_getElem (by simp [Document.without]) fun j _ _ => ?_
  simp only [Document.without, List.getElem_map, List.getElem_modify]
  split_ifs
  · exact hf _
  · rfl

theorem outboundTags_without : (d.without i field).outboundTags = d.outboundTags :=
  map_without fun _ => tag_without

theorem warnings_without : (d.without i field).warnings = d.warnings := by
  have hmembers : (d.without i field).outbounds.mapIdx (checkMembers d.outboundTags) =
      d.outbounds.mapIdx (checkMembers d.outboundTags) := by
    refine List.ext_getElem (by simp [Document.without]) fun j _ _ => ?_
    simp only [Document.without, List.getElem_mapIdx, List.getElem_modify]
    split_ifs
    · rw [checkMembers, members_without]
      rfl
    · rfl
  rw [Document.warnings, Document.warnings, outboundTags_without, hmembers]
  rfl

/-- A valid document has just one error without a field that the kind of an outbound asks for. -/
theorem errors_without (hd : d.errors = []) (hi : i < d.outbounds.length)
    (hkind : d.outbounds[i].kind ∈ field.kinds) : (d.without i field).errors = [field.finding i] := by
  obtain ⟨houtbounds, hinbounds⟩ := List.append_eq_nil_iff.1 hd
  have hnonempty : d.outbounds.isEmpty = false := by
    rw [List.isEmpty_eq_false_iff]
    exact List.ne_nil_of_length_pos (by omega)
  have hnonempty' : (d.without i field).outbounds.isEmpty = false := by
    rw [List.isEmpty_eq_false_iff, ← List.length_pos_iff, Document.without, List.length_modify]
    omega
  rw [Document.outboundErrors, hnonempty] at houtbounds
  have hcheck := flatten_mapIdx_eq_nil_iff.1 houtbounds i hi
  rw [Document.errors, Document.outboundErrors, hnonempty', outboundTags_without]
  show ((d.outbounds.modify i (·.without field)).mapIdx (checkOutbound d.outboundTags)).flatten ++ d.inboundErrors = _
  rw [hinbounds, List.append_nil, flatten_mapIdx_modify houtbounds hi, checkOutbound_without hcheck hkind]

end Document

/-! ## The document that offers nodes -/

/-- **A missing field is found once, and at its place.** Let the document that offers some nodes be valid, whatever
their parameters are, and take from the outbound of a node a field that its kind has to have. The document is then
invalid by one error, which says that the field is required and is at its place, and it is not warned about. -/
theorem validate_without (nodes : List NodeEntry) (settings : EngineSettings)
    (hvalid : (Document.ofNodes nodes settings).validate.valid = true) (i : Nat) (hi : i < nodes.length)
    (field : Field) (hkind : nodes[i].toOutbound.kind ∈ field.kinds) :
    ∃ e, ((Document.ofNodes nodes settings).without i field).validate.errors = [e] ∧
      e.place.path = s!"outbounds[{i}].{field.name}" ∧ e.rule = .required ∧
      ((Document.ofNodes nodes settings).without i field).validate.valid = false ∧
      ((Document.ofNodes nodes settings).without i field).validate.warnings = [] := by
  have hlength : i < (Document.ofNodes nodes settings).outbounds.length := by
    simp only [Document.ofNodes, List.length_append, List.length_map]
    omega
  have houtbound : (Document.ofNodes nodes settings).outbounds[i] = nodes[i].toOutbound := by
    simp [Document.ofNodes, hi]
  have herrors := errors_without (valid_validate_iff.1 hvalid) hlength (houtbound ▸ hkind)
  have hwarnings : ((Document.ofNodes nodes settings).without i field).warnings = [] :=
    warnings_without.trans (warnings_eq_nil_iff.2 resolved_ofNodes)
  exact ⟨field.finding i, herrors, rfl, rfl, congrArg List.isEmpty herrors, hwarnings⟩

/-- Two nodes that have tags of their own. -/
def distinctEntries : List NodeEntry :=
  [{ tag := "a", server := "127.0.0.1", port := 10000, params := .trojan ⟨"secret", {}, none⟩ },
   { tag := "b", server := "node.example.com", port := 443
     params := .shadowsocks ⟨"aes-256-gcm", "secret", none, none⟩ }]

theorem validate_without_distinctEntries :
    (Document.ofNodes distinctEntries {}).validate.valid = true ∧
    ∃ e, ((Document.ofNodes distinctEntries {}).without 1 .method).validate.errors = [e] ∧
      e.place.path = "outbounds[1].method" ∧ e.rule = .required ∧
      ((Document.ofNodes distinctEntries {}).without 1 .method).validate.valid = false ∧
      ((Document.ofNodes distinctEntries {}).without 1 .method).validate.warnings = [] := by
  have hvalid : (Document.ofNodes distinctEntries {}).validate.valid = true := by decide +kernel
  exact ⟨hvalid, validate_without distinctEntries {} hvalid 1 (by decide) .method (by decide)⟩

end ProxyFleet.Engine

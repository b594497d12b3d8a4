import ProxyFleet.Proofs.Engine.References
import ProxyFleet.Proofs.Nodes.Rate
import ProxyFleet.Proofs.Nodes.Stored

/-!
# Every stored node has a valid engine document

Under fixed settings a node is stored only if its document is valid, and the document of the node that is
read from the row is valid for the same reasons: name, host, port and parameters are had back as they
were checked, and that the settings have a port to listen at was checked with the first node.

* `RosterCall.Keeps` : a call that does not bring other settings;
* `Roster.Serves` : what such calls keep (`Serves.run`);
* `NodeRow.Describes`, `NodeRow.Sound.exists_describes` : what the row of a node says, column by column;
* `Roster.config_valid` : every stored node is read, and its document is valid and not warned about.
-/

namespace ProxyFleet

set_option autoImplicit false

/-- The row says of the node what it was written for: the columns with documents hold the text of its
parameters and its groups, and the rate is one that counts traffic. -/
structure NodeRow.Describes (r : NodeRow) (n : Node) : Prop where
  protocol : r.protocol = n.params.protocol.name
  params : r.params = JsonColumn.ofText n.params.canonical.compact
  groups : r.groups = JsonColumn.ofText (Json.ints n.groups).compact
  rate : r.rate = n.rate
  counts : Counts n.rate

namespace NodeRow

theorem parseRaw?_ints {is : List Int} (h : ∀ i ∈ is, SixtyFourBits i) :
    Json.parseRaw? (Json.ints is).compact = some (Json.ints is) := by
  have hlegible : Json.Legible 1 (Json.ints is) := Json.legible_arr fun i hi => (h i hi).legible
  exact Json.parseRaw?_compact (hlegible.mono (by decide))

/-- The node that is read from the row of a node that was checked. -/
theorem Sound.exists_describes {r : NodeRow} (h : r.Sound) (now : Instant) (id : Int) :
    ∃ n, r.node now id = .ok n ∧ n.id = id ∧ n.Sound ∧ r.Describes n := by
  obtain ⟨n, hn, created, rfl⟩ := h
  refine ⟨_, node_ofNode hn created now id, rfl, ⟨hn.params, hn.names, hn.host, hn.port, hn.groups⟩, ?_⟩
  exact ⟨rfl, n.params.parseRaw?_canonical.symm, (parseRaw?_ints hn.groups).symm, rfl, counts_normalizeRate n.rate⟩

end NodeRow

/-- A call that does not bring other settings. -/
def RosterCall.Keeps (settings : EngineSettings) : RosterCall → Prop
  | reopen settings' _ => settings' = settings
  | create _ _ | update _ _ _ | delete _ | ports _ => True

namespace Roster

variable {s : Roster} {settings : EngineSettings} {now : Instant}

/-- Under these settings every row is one of a node that was checked, and if there is a row the settings
have a port to listen at. -/
structure Serves (settings : EngineSettings) (s : Roster) : Prop where
  same : s.settings = settings
  stores : s.Stores
  localPort : s.nodes.rows ≠ [] → settings.localPort ≠ 0

/-- Of a node that was checked, only the port that the settings listen at can make the document invalid. -/
theorem checkDocument_of_sound {n : Node} (hn : n.Sound) :
    s.checkDocument n = .ok () ↔ s.settings.localPort ≠ 0 := by
  rw [checkDocument_eq_ok_iff hn.params.offerable hn.name]
  exact ⟨fun h => h.2.2, fun h => ⟨hn.host, hn.port, h⟩⟩

theorem valid_of_checkDocument {n : Node} (h : s.checkDocument n = .ok ()) :
    (n.document s.settings).validate.valid = true := by
  unfold checkDocument at h
  dsimp only at h
  split_ifs at h with hvalid
  exact hvalid

namespace Serves

theorem empty (settings : EngineSettings) (range : PortSettings) : Serves settings (empty settings range) :=
  ⟨rfl, Stores.empty settings range, fun hrows => absurd rfl hrows⟩

theorem create (h : Serves settings s) (hs : s.Sound) {r : NodeRequest} (hgroups : ∀ g ∈ r.groups, SixtyFourBits g)
    (refused : UInt16 → Bool) (now : Instant) : Serves settings (s.create refused r now).2 := by
  have hstores := h.stores.create hs hgroups refused now
  have henrolls := create_enrolls s refused r now
  generalize s.create refused r now = result at hstores henrolls
  cases henrolls with
  | refused | portless => exact ⟨h.same, hstores, h.localPort⟩
  | undone _ n id_eq ports =>
    have hrows : ((s.nodes.insert (NodeRow.ofNode n)).eraseId n.id).rows = s.nodes.rows := by
      rw [id_eq]
      exact hs.nodes.rows_eraseId_insert _
    exact ⟨h.same, hstores, fun hne => h.localPort (hrows ▸ hne)⟩
  | enrolled n names params requested valid ports =>
    have hn : n.Sound := (Enrolls.enrolled n names params requested valid ports).sound hgroups
    exact ⟨h.same, hstores, fun _ => h.same ▸ (checkDocument_of_sound hn).1 valid⟩

theorem update (h : Serves settings s) {c : NodeChange} (hgroups : ∀ groups ∈ c.groups, ∀ g ∈ groups, SixtyFourBits g)
    (refused : UInt16 → Bool) (id : Int) (now : Instant) : Serves settings (s.update refused id c now).2 := by
  have hstores := h.stores.update hgroups refused id now
  have hrevises := update_revises s refused id c now
  generalize s.update refused id c now = result at hstores hrevises
  cases hrevises with
  | refused | failed => exact ⟨h.same, hstores, h.localPort⟩
  | revised n old find names params changed valid ports =>
    refine ⟨h.same, hstores, fun hne => h.localPort fun hrows => hne ?_⟩
    show (s.nodes.write n).rows = []
    rw [NodeTable.write, Table.rows_modifyId, hrows, List.map_nil]

theorem delete (h : Serves settings s) (id : Int) (now : Instant) : Serves settings (s.delete id now).2 := by
  have hremoves := delete_removes s id now
  generalize s.delete id now = result at hremoves
  cases hremoves with
  | refused => exact h
  | removed released old find ports =>
    refine ⟨h.same, fun e he => h.stores e (List.mem_filter.1 he).1, fun hne => h.localPort fun hrows => hne ?_⟩
    show (s.nodes.eraseId id).rows = []
    rw [Table.rows_eraseId, hrows, List.filter_nil]

/-- Every call keeps this that gives groups of 64 bits and brings no other settings. -/
theorem call (h : Serves settings s) (hs : s.Sound) (now : Instant) {c : RosterCall} (hfit : c.GroupsFit)
    (hkeeps : c.Keeps settings) : Serves settings (s.call now c) := by
  cases c with
  | create refused request => exact h.create hs hfit refused now
  | update refused id change => exact h.update hfit refused id now
  | delete id => exact h.delete id now
  | reopen settings' range => exact ⟨hkeeps, h.stores, h.localPort⟩
  | ports c => exact ⟨h.same, h.stores, h.localPort⟩

theorem run (h : Serves settings s) (hs : s.Sound) {calls : List (Instant × RosterCall)}
    (hcalls : ∀ c ∈ calls, c.2.GroupsFit ∧ c.2.Keeps settings) : Serves settings (s.run calls) := by
  induction calls generalizing s with
  | nil => exact h
  | cons c calls ih =>
    obtain ⟨hfirst, hrest⟩ := List.forall_mem_cons.1 hcalls
    exact ih (h.call hs c.1 hfirst.1 hfirst.2) (hs.call c.1 c.2) hrest

/-- The document of a node that was checked is valid, and nothing in it is warned about. -/
theorem document_valid (h : Serves settings s) (hrows : s.nodes.rows ≠ []) {n : Node} (hn : n.Sound) :
    (n.document settings).validate.valid = true ∧ (n.document settings).validate.warnings = [] := by
  refine ⟨?_, Engine.warnings_eq_nil_iff.2 Engine.resolved_ofNodes⟩
  have hvalid := valid_of_checkDocument ((checkDocument_of_sound (s := s) hn).2 (h.same ▸ h.localPort hrows))
  rwa [h.same] at hvalid

end Serves

/-- **Every stored node is read, and its document is valid.** After any calls that add, change and remove
nodes, with groups of 64 bits and under settings that stay, all rows are read, one by one and together.
The protocol of each is that of its parameters, its documents hold the text of what is read, its rate
counts traffic, and the engine document of its node is valid, with no warning. -/
theorem config_valid (settings : EngineSettings) (range : PortSettings) (calls : List (Instant × RosterCall))
    (hcalls : ∀ c ∈ calls, c.2.GroupsFit ∧ c.2.Keeps settings) (now : Instant) :
    let s := (empty settings range).run calls
    (∃ nodes, s.list now = .ok nodes ∧ nodes.map (·.id) = s.nodes.rows.map (·.1)) ∧
    (∀ id, s.nodes.get? id = none → s.find id now = .error (.notFound id)) ∧
    ∀ id row, s.nodes.get? id = some row → ∃ n, s.find id now = .ok n ∧ n.id = id ∧ row.Describes n ∧
      s.config id now = .ok (n.document settings) ∧ (n.document settings).validate.valid = true ∧
      (n.document settings).validate.warnings = [] := by
  intro s
  have hserves : Serves settings s := (Serves.empty settings range).run (Sound.empty settings range) hcalls
  refine ⟨?_, fun id hnone => ?_, fun id row hrow => ?_⟩
  · obtain ⟨nodes, hlist, hids, -⟩ := NodeTable.exists_list hserves.stores now
    exact ⟨nodes, by rw [list, hlist]; rfl, hids⟩
  · rw [find, NodeTable.find?, hnone]
  · have hmem : (id, row) ∈ s.nodes.rows := Table.mem_rows_of_get? hrow
    obtain ⟨n, hnode, hid, hn, hdescribes⟩ := (hserves.stores _ hmem).exists_describes now id
    have hfind : s.find id now = .ok n := (find_iff_node hrow).2 hnode
    have hconfig : s.config id now = .ok (n.document settings) := by
      rw [config, hfind, hserves.same]
      rfl
    exact ⟨n, hfind, hid, hdescribes, hconfig, hserves.document_valid (List.ne_nil_of_mem hmem) hn⟩

/-- A node is added, becomes one of another protocol, and a rate that counts no traffic is asked for it. -/
def sampleChanges : List (Instant × RosterCall) :=
  [.create (fun _ => false) (sampleRequest "a"),
    .update (fun _ => false) 1 { protocol := some "Trojan", params := some [("password", .str "secret")] },
    .update (fun _ => false) 1 { rate := some Binary64.zero }].map (⟨0⟩, ·)

theorem config_valid_sampleChanges :
    (∀ c ∈ sampleChanges, c.2.GroupsFit ∧ c.2.Keeps {}) ∧
    let s := (empty {} sampleRange).run sampleChanges
    (∃ nodes, s.list ⟨0⟩ = .ok nodes ∧ nodes.map (·.id) = s.nodes.rows.map (·.1)) ∧
    (∀ id, s.nodes.get? id = none → s.find id ⟨0⟩ = .error (.notFound id)) ∧
    ∀ id row, s.nodes.get? id = some row → ∃ n, s.find id ⟨0⟩ = .ok n ∧ n.id = id ∧ row.Describes n ∧
      s.config id ⟨0⟩ = .ok (n.document {}) ∧ (n.document {}).validate.valid = true ∧
      (n.document {}).validate.warnings = [] := by
  have hcalls : ∀ c ∈ sampleChanges, c.2.GroupsFit ∧ c.2.Keeps {} := by
    simp [sampleChanges, RosterCall.GroupsFit, RosterCall.Keeps, sampleRequest]
  exact ⟨hcalls, config_valid {} sampleRange sampleChanges hcalls ⟨0⟩⟩

/-- The node is there in the end. -/
example : ((empty {} sampleRange).run sampleChanges).nodes.rows.map (fun e => (e.1, e.2.protocol)) =
    [(1, "trojan")] := by decide +kernel

end Roster

end ProxyFleet

import ProxyFleet.Proofs.Nodes.Creation
import ProxyFleet.Proofs.Nodes.Outcome
import ProxyFleet.Proofs.Protocol.Canonical

/-!
# Nodes are had back from their rows

What was checked of a node when it was written holds of the node that is read from its row, whatever
was called in between. The groups of a node are written as they are, so that only those that have
64 bits are read back.

* `Node.Sound` : what is checked of a node before it is written;
* `NodeRow.node_ofNode` : such a node is had back from its row;
* `RosterCall.GroupsFit` : a call that gives groups of 64 bits only;
* `Roster.Stores` : every row is one of such a node; every such call keeps this (`Stores.run`);
* `NodeTable.list_yields` : nodes that are read have the ids of the rows;
* `NodeTable.exists_list` : all nodes are read, and what was checked holds of each.
-/

namespace ProxyFleet

set_option autoImplicit false

/-- What is checked of a node before it is written. -/
structure Node.Sound (n : Node) : Prop where
  params : n.params.Normal
  names : checkNames n.name n.host = .ok ()
  host : Net.isHost n.host = true
  port : n.port ≠ 0
  groups : ∀ g ∈ n.groups, SixtyFourBits g

theorem Node.Sound.name {n : Node} (h : n.Sound) : n.name ≠ "" ∧ n.name ∉ Engine.reservedTags := by
  obtain ⟨hname, hreserved, -⟩ := checkNames_eq_ok_iff.1 h.names
  exact unreserved_of_trim hname hreserved

/-- A row of a node that was checked; when it was created may be what an older row said. -/
def NodeRow.Sound (r : NodeRow) : Prop :=
  ∃ n : Node, n.Sound ∧ ∃ created, r = { NodeRow.ofNode n with createdAt := created }

namespace NodeRow

theorem sound_ofNode {n : Node} (h : n.Sound) : (ofNode n).Sound := ⟨n, h, (ofNode n).createdAt, rfl⟩

/-- A node that was checked is had back from its row, under the id of the row. Its rate and its times are
what the columns say. -/
theorem node_ofNode {n : Node} (h : n.Sound) (created : String) (now : Instant) (id : Int) :
    ({ ofNode n with createdAt := created } : NodeRow).node now id = .ok
      { n with id, rate := normalizeRate n.rate, createdAt := timeColumn now created
               updatedAt := timeColumn now n.updatedAt.stamp } := by
  obtain ⟨form, hform, hsorted⟩ := n.params.canonical_eq_obj
  have hcanonical : Params.ofCanonical n.protocolName form = .ok n.params := Params.ofCanonical_canonical hform
  have hgroups := Decoder.list_ints h.groups
  simp only [node, ofNode, JsonColumn.read, hform, hsorted, Json.obj?, Option.getD_some, Except.mapError, bind,
    Except.bind, hcanonical, portColumn_toNat, hgroups]
  rfl

theorem Sound.exists_node {r : NodeRow} (h : r.Sound) (now : Instant) (id : Int) :
    ∃ n, r.node now id = .ok n ∧ n.id = id ∧ n.Sound := by
  obtain ⟨n, hn, created, rfl⟩ := h
  exact ⟨_, node_ofNode hn created now id, rfl, hn.params, hn.names, hn.host, hn.port, hn.groups⟩

end NodeRow

/-- The node of a row has the id of the row. -/
theorem NodeRow.node_yields (r : NodeRow) (now : Instant) (id : Int) : Yields (r.node now id) (·.id = id) :=
  (Yields.any _).bind fun _ _ => (Yields.any _).bind fun _ _ => (Yields.any _).bind fun _ _ =>
    (Yields.any _).bind fun _ _ => .ok rfl

namespace NodeTable

theorem list_yields (t : NodeTable) (now : Instant) :
    Yields (t.list now) fun nodes => nodes.map (·.id) = t.rows.map (·.1) :=
  Yields.mapM_keys fun e _ => NodeRow.node_yields e.2 now e.1

/-- All nodes are had back from rows of nodes that were checked. -/
theorem exists_list {t : NodeTable} (h : ∀ e ∈ t.rows, e.2.Sound) (now : Instant) :
    ∃ nodes, t.list now = .ok nodes ∧ nodes.map (·.id) = t.rows.map (·.1) ∧ ∀ n ∈ nodes, n.Sound := by
  have hread : ∀ e ∈ t.rows, ∃ n, e.2.node now e.1 = .ok n ∧ e.1 = n.id := by
    intro e he
    obtain ⟨n, hn, hid, -⟩ := (h e he).exists_node now e.1
    exact ⟨n, hn, hid.symm⟩
  obtain ⟨nodes, hok, hids⟩ := exists_mapM_eq_ok hread
  have hyields : Yields (t.list now) fun nodes => ∀ n ∈ nodes, n.Sound := by
    refine Yields.mapM fun e he n hn => ?_
    obtain ⟨m, hm, -, hsound⟩ := (h e he).exists_node now e.1
    obtain rfl : m = n := Except.ok.inj (hm.symm.trans hn)
    exact hsound
  exact ⟨nodes, hok, hids, hyields nodes hok⟩

end NodeTable

/-- A call that gives groups of 64 bits only. -/
def RosterCall.GroupsFit : RosterCall → Prop
  | create _ request => ∀ g ∈ request.groups, SixtyFourBits g
  | update _ _ change => ∀ groups ∈ change.groups, ∀ g ∈ groups, SixtyFourBits g
  | delete _ | reopen _ _ | ports _ => True

namespace Roster

variable {s : Roster} {refused : UInt16 → Bool} {now : Instant} {id : Int}

/-- Every row is one of a node that was checked. -/
def Stores (s : Roster) : Prop := ∀ e ∈ s.nodes.rows, e.2.Sound

/-- What is found of a node is what is read from its row. -/
theorem find_iff_node {row : NodeRow} (hrow : s.nodes.get? id = some row) {n : Node} :
    s.find id now = .ok n ↔ row.node now id = .ok n := by
  unfold Roster.find NodeTable.find?
  rw [hrow]
  dsimp only
  cases row.node now id with
  | error e => simp [Except.map]
  | ok m => simp [Except.map]

theorem Stores.find (h : s.Stores) {n : Node} (hfind : s.find id now = .ok n) : n.Sound := by
  obtain ⟨-, row, hrow, -⟩ := find_eq_ok hfind
  obtain ⟨m, hm, -, hsound⟩ := (h _ (Table.mem_rows_of_get? hrow)).exists_node now id
  obtain rfl : m = n := Except.ok.inj (hm.symm.trans ((find_iff_node hrow).1 hfind))
  exact hsound

/-- A node that passes the checks before it is written, with groups that fit, is one that was checked. -/
theorem sound_of_checks {n : Node} (hparams : n.params.Normal) (hnames : checkNames n.name n.host = .ok ())
    (hvalid : s.checkDocument n = .ok ()) (hgroups : ∀ g ∈ n.groups, SixtyFourBits g) : n.Sound := by
  obtain ⟨hname, hreserved, -⟩ := checkNames_eq_ok_iff.1 hnames
  obtain ⟨hhost, hport, -⟩ :=
    (checkDocument_eq_ok_iff hparams.offerable (unreserved_of_trim hname hreserved)).1 hvalid
  exact ⟨hparams, hnames, hhost, hport, hgroups⟩

/-! ## Adding a node -/

theorem Enrolls.sound {r : NodeRequest} {n : Node} {s' : Roster} (h : Enrolls s r now (.ok n, s'))
    (hgroups : ∀ g ∈ r.groups, SixtyFourBits g) : n.Sound := by
  cases h with
  | enrolled _ names params requested valid ports =>
    rw [requested] at valid ⊢
    exact sound_of_checks (parseParams_normal params) names valid hgroups

theorem Stores.create (h : s.Stores) (hs : s.Sound) {r : NodeRequest} (hgroups : ∀ g ∈ r.groups, SixtyFourBits g)
    (refused : UInt16 → Bool) (now : Instant) : (s.create refused r now).2.Stores := by
  have henrolls := create_enrolls s refused r now
  generalize s.create refused r now = result at henrolls
  intro e he
  cases henrolls with
  | refused | portless => exact h e he
  | undone _ n id_eq ports =>
    have hrows : ((s.nodes.insert (NodeRow.ofNode n)).eraseId n.id).rows = s.nodes.rows := by
      rw [id_eq]
      exact hs.nodes.rows_eraseId_insert _
    exact h e (hrows ▸ he)
  | enrolled n names params requested valid ports =>
    rcases List.mem_append.1 he with he | he
    · exact h e he
    · rw [List.mem_singleton.1 he]
      exact NodeRow.sound_ofNode ((Enrolls.enrolled n names params requested valid ports).sound hgroups)

/-! ## Changing a node -/

theorem changedParams_normal {old : Node} (hold : old.params.Normal) {c : NodeChange} {params : Params}
    (h : changedParams old c = .ok params) : params.Normal := by
  unfold changedParams at h
  split_ifs at h
  · cases h
    exact hold
  · exact parseParams_normal h

/-- What is checked of a changed node, the changes that need no check included. -/
theorem Revises.sound (h : s.Stores) {c : NodeChange} {n : Node} {s' : Roster} (hr : Revises s id c now (.ok n, s'))
    (hgroups : ∀ groups ∈ c.groups, ∀ g ∈ groups, SixtyFourBits g) : n.Sound := by
  cases hr with
  | revised _ old find names params changed valid ports =>
    have hold := h.find find
    have hfit : ∀ g ∈ c.groups.getD old.groups, SixtyFourBits g := by
      cases hc : c.groups with
      | none => exact hold.groups
      | some groups => exact hgroups groups hc
    rw [changed] at valid ⊢
    exact sound_of_checks (changedParams_normal hold.params params) names valid hfit

/-- A node is written over its row only if it is one that was checked. -/
theorem Stores.write (h : s.Stores) {n : Node} (hn : n.Sound) : ∀ e ∈ (s.nodes.write n).rows, e.2.Sound := by
  intro e he
  rw [NodeTable.write, Table.rows_modifyId] at he
  obtain ⟨e', he', rfl⟩ := List.mem_map.1 he
  split_ifs
  · exact ⟨n, hn, e'.2.createdAt, rfl⟩
  · exact h e' he'

theorem Stores.update (h : s.Stores) {c : NodeChange} (hgroups : ∀ groups ∈ c.groups, ∀ g ∈ groups, SixtyFourBits g)
    (refused : UInt16 → Bool) (id : Int) (now : Instant) : (s.update refused id c now).2.Stores := by
  have hrevises := update_revises s refused id c now
  generalize s.update refused id c now = result at hrevises
  cases hrevises with
  | refused | failed => exact h
  | revised n old find names params changed valid ports =>
    exact h.write ((Revises.revised n old find names params changed valid ports).sound h hgroups)

/-! ## Runs -/

theorem Stores.empty (settings : EngineSettings) (range : PortSettings) : (empty settings range).Stores := by
  simp [Stores, Roster.empty]

/-- Every call that gives groups of 64 bits keeps each row one of a node that was checked. -/
theorem Stores.call (h : s.Stores) (hs : s.Sound) (now : Instant) {c : RosterCall} (hc : c.GroupsFit) :
    (s.call now c).Stores := by
  cases c with
  | create refused request => exact h.create hs hc refused now
  | update refused id change => exact h.update hc refused id now
  | delete id =>
    rcases delete_cases hs.ports id now with ⟨e, heq⟩ | ⟨ports, s', heq, hnodes, -⟩
    · rw [Roster.call, heq]
      exact h
    · intro e he
      rw [Roster.call, heq, hnodes, Table.rows_eraseId] at he
      exact h e (List.mem_filter.1 he).1
  | reopen settings range =>
    obtain ⟨n, ports, heq, -⟩ := reopen_eq hs.ports settings range now
    rw [Roster.call, heq]
    exact h
  | ports c => exact h

theorem Stores.run (h : s.Stores) (hs : s.Sound) {calls : List (Instant × RosterCall)}
    (hc : ∀ c ∈ calls, c.2.GroupsFit) : (s.run calls).Stores := by
  induction calls generalizing s with
  | nil => exact h
  | cons c calls ih =>
    obtain ⟨hfirst, hrest⟩ := List.forall_mem_cons.1 hc
    exact ih (h.call hs c.1 hfirst) (hs.call c.1 c.2) hrest

end Roster

end ProxyFleet

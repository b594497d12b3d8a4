import ProxyFleet.Proofs.Nodes.Move
import ProxyFleet.Proofs.Store.Table

/-!
# What the changes of nodes come to

* `Roster.move?` : the move that a change of a node asks for;
* `Updates`, `update_updates` : what a change of a node can come to, and that it comes to nothing else;
* `Creates`, `create_creates` : the same for a node that is added;
* `delete_cases`, `reopen_eq` : what is left when a node is removed, and when the services start anew.
-/

namespace ProxyFleet

set_option autoImplicit false

theorem portColumn_eq_ok {i : Int} {p : UInt16} (h : portColumn i = .ok p) : i = p.toNat := by
  unfold portColumn at h
  split_ifs at h with hi
  cases h
  rw [UInt16.toNat_ofNat_of_lt' (by show i.toNat < 2 ^ 16; omega)]
  omega

/-- A row that can be read is read with its id and its port. -/
theorem NodeRow.node_eq_ok {r : NodeRow} {now : Instant} {id : Int} {n : Node} (h : r.node now id = .ok n) :
    n.id = id ∧ r.port = n.port.toNat := by
  obtain ⟨form, -, h⟩ := exists_of_bind_eq_ok h
  obtain ⟨params, -, h⟩ := exists_of_bind_eq_ok h
  obtain ⟨port, hport, h⟩ := exists_of_bind_eq_ok h
  obtain ⟨groups, -, h⟩ := exists_of_bind_eq_ok h
  cases h
  exact ⟨rfl, portColumn_eq_ok hport⟩

namespace Roster

variable {s : Roster} {id : Int} {now : Instant}

@[simp] theorem ports_record (s : Roster) (id : Int) (action : NodeAction) (old new : Option String)
    (error : Option NodeError) (now : Instant) : (s.record id action old new error now).ports = s.ports := rfl

theorem find_eq_ok {n : Node} (h : s.find id now = .ok n) :
    n.id = id ∧ ∃ row, s.nodes.get? id = some row ∧ row.port = n.port.toNat := by
  unfold find NodeTable.find? at h
  cases hrow : s.nodes.get? id with
  | none =>
    rw [hrow] at h
    cases h
  | some row =>
    rw [hrow] at h
    cases hnode : row.node now id with
    | error e =>
      simp only [hnode] at h
      cases h
    | ok m =>
      simp only [hnode] at h
      cases h
      obtain ⟨hid, hport⟩ := NodeRow.node_eq_ok hnode
      exact ⟨hid, row, rfl, hport⟩

/-! ## Changing a node -/

/-- The port that a node leaves and the one that it moves to, if a change gets that far. -/
def move? (s : Roster) (id : Int) (c : NodeChange) (now : Instant) : Option (UInt16 × UInt16) :=
  match s.find id now with
  | .error _ => none
  | .ok old =>
    if (checkNames (c.apply old).name (c.apply old).host).isOk && (changedParams old c).isOk then
      (c.port.filter (· ≠ old.port)).map (old.port, ·)
    else none

/-- What a change of a node can come to, by the move it asks for: an answer, and what it leaves. -/
inductive Updates (s : Roster) (refused : UInt16 → Bool) (id : Int) :
    Option (UInt16 × UInt16) → Except NodeError Node × Roster → Prop where
  | rejected (e : NodeError) (s' : Roster) (nodes : s'.nodes = s.nodes) (ports : s'.ports = s.ports) :
    Updates s refused id none (.error e, s')
  | rewritten (n : Node) (s' : Roster) (row : NodeRow) (get : s.nodes.get? id = some row)
    (port : row.port = n.port.toNat) (id_eq : n.id = id) (nodes : s'.nodes = s.nodes.write n)
    (ports : s'.ports = s.ports) : Updates s refused id none (.ok n, s')
  | failed (e : NodeError) (s' : Roster) (row : NodeRow) (old wanted : UInt16)
    (get : s.nodes.get? id = some row) (port : row.port = old.toNat) (ne : wanted ≠ old)
    (nodes : s'.nodes = s.nodes) (agrees : s'.ports.Agrees) (range : s'.ports.range = s.ports.range)
    (table : s'.ports.table.holder? = failedHolders s.ports refused id old wanted) :
    Updates s refused id (some (old, wanted)) (.error e, s')
  | moved (n : Node) (s' : Roster) (row : NodeRow) (old : UInt16) (get : s.nodes.get? id = some row)
    (port : row.port = old.toNat) (ne : n.port ≠ old) (free : s.ports.Free refused n.port) (id_eq : n.id = id)
    (nodes : s'.nodes = s.nodes.write n) (agrees : s'.ports.Agrees) (range : s'.ports.range = s.ports.range)
    (table : s'.ports.table.holder? = movedHolders s.ports id old n.port) :
    Updates s refused id (some (old, n.port)) (.ok n, s')

/-- A change that asks for no other port leaves the ports alone. -/
theorem changedPort_of_none {refused : UInt16 → Bool} {old : Node} {c : NodeChange}
    (h : c.port.filter (· ≠ old.port) = none) : s.changedPort refused old c now = (.ok old.port, s) := by
  unfold changedPort
  cases hp : c.port with
  | none => rfl
  | some port =>
    have heq : port = old.port := by simpa [hp] using h
    simp only [heq, if_true]

theorem changedPort_of_some (s : Roster) (refused : UInt16 → Bool) {old : Node} {c : NodeChange}
    {wanted : UInt16} (h : c.port.filter (· ≠ old.port) = some wanted) (now : Instant) :
    wanted ≠ old.port ∧ s.changedPort refused old c now =
      (((movePort s.ports refused old.id old.port wanted now).1.mapError NodeError.port).map fun _ => wanted,
        { s with ports := (movePort s.ports refused old.id old.port wanted now).2 }) := by
  obtain ⟨hp, hne⟩ := Option.filter_eq_some_iff.1 h
  have hne : wanted ≠ old.port := by simpa using hne
  refine ⟨hne, ?_⟩
  rw [changedPort, hp]
  simp only [if_neg hne]
  rcases movePort s.ports refused old.id old.port wanted now with ⟨_ | _, ports⟩
  · rfl
  · rfl

variable {refused : UInt16 → Bool} {old : Node} {row : NodeRow}

/-- A changed node that keeps its port is written over its row, or nothing happens. -/
theorem settle_unmoved {node : Node} (hget : s.nodes.get? id = some row) (hport : row.port = node.port.toNat)
    (hid : node.id = id) (hsame : node.port = old.port) :
    Updates s refused id none (s.settle refused old node now) := by
  unfold settle
  cases s.checkDocument node with
  | ok _ => exact .rewritten _ _ row hget hport hid rfl rfl
  | error e => exact .rejected _ _ rfl (if_pos hsame)

/-- A changed node that has moved is written over its row, or it moves back. -/
theorem settle_moved {ports : Ports} (h : s.ports.Agrees) (node : Node) (hget : s.nodes.get? id = some row)
    (hport : row.port = old.port.toNat) (hold : old.id = id) (hid : node.id = id)
    (hne : node.port ≠ old.port) (hfree : s.ports.Free refused node.port) (hagrees : ports.Agrees)
    (hrange : ports.range = s.ports.range)
    (htable : ports.table.holder? = movedHolders s.ports id old.port node.port) :
    Updates s refused id (some (old.port, node.port)) (settle { s with ports } refused old node now) := by
  unfold settle
  cases checkDocument { s with ports } node with
  | ok _ => exact .moved _ _ row _ hget hport hne hfree hid rfl hagrees hrange htable
  | error e =>
    obtain ⟨hback, hrange', htable'⟩ := Moves.back h hne hfree hagrees hrange htable
      (movePort_moves hagrees refused id hne.symm now)
    have hports : (if node.port = old.port then ports
        else (movePort ports refused old.id node.port old.port now).2) =
        (movePort ports refused id node.port old.port now).2 := by
      rw [if_neg hne, hold]
    simp only [hports]
    exact .failed _ _ row _ _ hget hport hne rfl hback hrange' htable'

/-- A change of a node comes to one of these, also where it is undone. -/
theorem update_updates (h : s.ports.Agrees) (refused : UInt16 → Bool) (id : Int) (c : NodeChange)
    (now : Instant) : Updates s refused id (s.move? id c now) (s.update refused id c now) := by
  unfold update move?
  cases hfind : s.find id now with
  | error e => exact .rejected _ _ rfl rfl
  | ok old =>
    obtain ⟨hid, row, hget, hport⟩ := find_eq_ok hfind
    cases hnames : checkNames (c.apply old).name (c.apply old).host with
    | error fault =>
      simp only [hnames]
      exact .rejected _ _ rfl rfl
    | ok _ =>
      simp only [hnames]
      cases hparams : changedParams old c with
      | error e => exact .rejected _ _ rfl rfl
      | ok params =>
        simp only [Except.isOk, Except.toBool, Bool.and_self, if_true]
        cases hasked : c.port.filter (· ≠ old.port) with
        | none =>
          rw [changedPort_of_none hasked]
          exact settle_unmoved hget hport hid rfl
        | some wanted =>
          obtain ⟨hne, heq⟩ := changedPort_of_some s refused hasked now
          have hmove := movePort_moves h refused id hne now
          rw [heq, hid]
          generalize movePort s.ports refused id old.port wanted now = r at hmove
          cases hmove with
          | stayed e ports htaken hagrees hrange htable =>
            refine .failed _ _ row _ _ hget hport hne rfl hagrees hrange ?_
            rw [failedHolders_of_not_free htaken]
            exact htable
          | done ports hfree hagrees hrange htable =>
            exact settle_moved h { c.apply old with params, port := wanted, updatedAt := now } hget hport
              hid hid hne hfree hagrees hrange htable

/-! ## Adding a node -/

/-- What adding a node can come to: an answer, and what it leaves. -/
inductive Creates (s : Roster) (refused : UInt16 → Bool) : Except NodeError Node × Roster → Prop where
  | failed (e : NodeError) (s' : Roster) (rows : s'.nodes.rows = s.nodes.rows)
    (numbered : s'.nodes.Numbered) (agrees : s'.ports.Agrees) (range : s'.ports.range = s.ports.range)
    (table : s'.ports.table.holder? = s.ports.table.holder?) : Creates s refused (.error e, s')
  | added (n : Node) (s' : Roster) (row : NodeRow) (port : row.port = n.port.toNat)
    (free : s.ports.Free refused n.port) (id_eq : n.id = s.nodes.nextId) (nodes : s'.nodes = s.nodes.insert row)
    (agrees : s'.ports.Agrees) (range : s'.ports.range = s.ports.range)
    (table : s'.ports.table.holder? =
      Function.update s.ports.table.holder? n.port (some (.node n.id))) : Creates s refused (.ok n, s')

theorem takePort_cases {ports : Ports} (h : ports.Agrees) (refused : UInt16 → Bool) (port : Option UInt16)
    (owner : Int) (now : Instant) :
    (∃ p, ports.Free refused p ∧ takePort ports refused port owner now =
      (.ok p, ports.taken { port := p, owner, purpose := .inbound, allocatedAt := now })) ∨
    ∃ e n, takePort ports refused port owner now = (.error e, { ports with conflicts := n }) := by
  cases port with
  | none =>
    rcases h.allocate_cases refused owner .inbound now with ⟨p, hf, heq⟩ | ⟨-, heq⟩
    · exact .inl ⟨p, hf, heq⟩
    · exact .inr ⟨_, ports.conflicts, heq⟩
  | some p =>
    by_cases hf : ports.Free refused p
    · exact .inl ⟨p, hf, h.allocateAt_of_free hf owner .inbound now⟩
    · obtain ⟨e, n, heq, -⟩ := Ports.Agrees.allocateAt_of_not_free hf owner .inbound now
      exact .inr ⟨e, n, heq⟩

/-- A node at a port that was free, and that was taken for it, is added, or nothing is left of it. -/
theorem enroll_creates (h : s.ports.Agrees) (hn : s.nodes.Numbered) (r : NodeRequest) (params : Params)
    {a : PortAllocation} (hf : s.ports.Free refused a.port) (ha : a.purpose = .inbound) (now : Instant) :
    Creates s refused (enroll { s with ports := s.ports.taken a } r params a.port now) := by
  have htaken := h.taken hf.1 hf.2.1
  have hheld : (s.ports.taken a).holder? a.port = some a.holder := by
    rw [Ports.holder?_taken, Function.update_self]
  rcases htaken.assign_cases a.port s.nodes.nextId with ⟨x, ports, hx, heq, hagrees, hrange, -, htable⟩ | ⟨hx, -⟩
  · rw [hheld] at hx
    cases hx
    rw [h.table_holder?_taken hf.1 hf.2.1, Function.update_idem] at htable
    have hassign : (s.ports.taken a).assign a.port (nodeOf r params s.nodes.nextId a.port now).id =
        (.ok (), ports) := heq
    unfold enroll
    simp only [hassign, Except.mapError, bind, Except.bind]
    cases checkDocument { s with ports := s.ports.taken a } (nodeOf r params s.nodes.nextId a.port now) with
    | ok _ =>
      refine .added _ _ _ rfl hf rfl rfl hagrees hrange ?_
      rw [ports_record, htable, PortAllocation.holder, ha]
      rfl
    | error e =>
      refine .failed _ _ (hn.rows_eraseId_insert _) ((hn.insert _).eraseId _) (hagrees.release _ now) hrange ?_
      -- The port that is given back was nobody's before it was taken.
      rw [ports_record, Ports.table_holder?_release, htable, Function.update_idem,
        ← h.unrecorded hf.1 hf.2.1, Function.update_eq_self]
  · rw [hheld] at hx
    cases hx

/-- Adding a node comes to one of these, also where it is undone. -/
theorem create_creates (h : s.ports.Agrees) (hn : s.nodes.Numbered) (refused : UInt16 → Bool)
    (r : NodeRequest) (now : Instant) : Creates s refused (s.create refused r now) := by
  unfold create
  cases checkNames r.name r.host with
  | error fault => exact .failed _ _ rfl hn h rfl rfl
  | ok _ =>
    cases parseParams r.protocol r.params with
    | error e => exact .failed _ _ rfl hn h rfl rfl
    | ok params =>
      rcases takePort_cases h refused r.port pendingOwner now with ⟨p, hf, heq⟩ | ⟨e, n, heq⟩
      · simp only [heq]
        exact enroll_creates (a := { port := p, owner := pendingOwner, purpose := .inbound, allocatedAt := now })
          h hn r params hf rfl now
      · simp only [heq]
        exact .failed _ _ rfl hn (h.conflicts n) rfl rfl

/-! ## Removing a node -/

/-- Removing a node gives back the ports that it holds, and changes nothing if there is no such node. -/
theorem delete_cases (h : s.ports.Agrees) (id : Int) (now : Instant) :
    (∃ e, s.delete id now = (.error e, s)) ∨
    ∃ ports s', s.delete id now = (.ok ports, s') ∧ s'.nodes = s.nodes.eraseId id ∧ s'.ports.Agrees ∧
      s'.ports.range = s.ports.range ∧ ∀ p, s'.ports.table.holder? p =
        if p ∈ s.ports.ofOwner id then none else s.ports.table.holder? p := by
  unfold delete
  cases s.find id now with
  | error e => exact .inl ⟨e, rfl⟩
  | ok old =>
    exact .inr ⟨_, _, rfl, rfl, h.releaseOwner id now, Ports.range_releaseOwner s.ports id now,
      Ports.table_holder?_releaseOwner s.ports id now⟩

/-! ## Starting anew -/

/-- What is stored stays, and what is recorded in the range is held. -/
theorem reopen_eq (h : s.ports.Agrees) (settings : EngineSettings) (range : PortSettings) (now : Instant) :
    ∃ n ports, s.reopen settings range now = (.ok n, { s with settings, ports }) ∧ ports.Agrees ∧
      ports.range = range ∧ ports.table = s.ports.table := by
  obtain ⟨held, heq, hagrees⟩ := Ports.reopen_eq h.sound range now
  refine ⟨held.length, { range, held, table := s.ports.table }, ?_, hagrees, rfl, rfl⟩
  unfold reopen
  rw [heq]

end Roster

end ProxyFleet

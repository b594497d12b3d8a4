import ProxyFleet.Proofs.Nodes.Changes

/-!
# What a call answers, and what it records

Whatever becomes of a call, the settings stay. At most one row changes, and at most one entry is added
to the history: of what was stored before, and of what was to be stored. `Updates` and `Creates` say what
becomes of the ports; here they may be any.

* `Revises`, `update_revises` : what a change of a node comes to;
* `Enrolls`, `create_enrolls` : the same for a node that is added;
* `Removes`, `delete_removes` : and for one that is removed.
-/

namespace ProxyFleet.Roster

set_option autoImplicit false

variable {s : Roster} {now : Instant}

/-! ## Changing a node -/

/-- What a change of a node comes to: an answer, and what it leaves with what it records. -/
inductive Revises (s : Roster) (id : Int) (c : NodeChange) (now : Instant) :
    Except NodeError Node × Roster → Prop where
  | refused (e : NodeError)
    (why : s.find id now = .error e ∨ ∃ old fault, s.find id now = .ok old ∧
      checkNames (c.apply old).name (c.apply old).host = .error fault ∧ e = .invalid fault) :
    Revises s id c now (.error e, s)
  | failed (e : NodeError) (old : Node) (find : s.find id now = .ok old) (new : Option String) (ports : Ports)
    (names : checkNames (c.apply old).name (c.apply old).host = .ok ()) :
    Revises s id c now (.error e, record { s with ports } id .update (some old.snapshot) new (some e) now)
  | revised (n old : Node) (find : s.find id now = .ok old)
    (names : checkNames (c.apply old).name (c.apply old).host = .ok ()) (params : changedParams old c = .ok n.params)
    (changed : n = { c.apply old with params := n.params, port := n.port, updatedAt := now })
    (valid : s.checkDocument n = .ok ()) (ports : Ports) :
    Revises s id c now (.ok n, record { s with ports, nodes := s.nodes.write n } id .update (some old.snapshot)
      (some n.snapshot) none now)

/-- Moving to a port changes the ports only. -/
theorem changedPort_eq (s : Roster) (refused : UInt16 → Bool) (old : Node) (c : NodeChange) (now : Instant) :
    ∃ answer ports, s.changedPort refused old c now = (answer, { s with ports }) := by
  unfold changedPort
  cases c.port with
  | none => exact ⟨_, s.ports, rfl⟩
  | some port =>
    dsimp only
    split_ifs
    · exact ⟨_, s.ports, rfl⟩
    · rcases movePort s.ports refused old.id old.port port now with ⟨_ | _, ports⟩
      · exact ⟨_, ports, rfl⟩
      · exact ⟨_, ports, rfl⟩

theorem update_revises (s : Roster) (refused : UInt16 → Bool) (id : Int) (c : NodeChange) (now : Instant) :
    Revises s id c now (s.update refused id c now) := by
  unfold update
  cases hfind : s.find id now with
  | error e => exact .refused e (.inl hfind)
  | ok old =>
    obtain ⟨hid, -⟩ := find_eq_ok hfind
    dsimp only
    cases hnames : checkNames (c.apply old).name (c.apply old).host with
    | error fault => exact .refused _ (.inr ⟨old, fault, hfind, hnames, rfl⟩)
    | ok _ =>
      dsimp only
      cases hparams : changedParams old c with
      | error e => exact .failed e old hfind none s.ports hnames
      | ok params =>
        obtain ⟨answer, ports, hport⟩ := changedPort_eq s refused old c now
        rw [hport]
        cases answer with
        | error e => exact .failed e old hfind none ports hnames
        | ok port =>
          let n : Node := { c.apply old with params, port, updatedAt := now }
          show Revises s id c now (settle { s with ports } refused old n now)
          have hcheck : checkDocument { s with ports } n = s.checkDocument n := rfl
          unfold settle
          rw [hcheck, hid]
          cases hvalid : s.checkDocument n with
          | error e => exact .failed e old hfind (some n.snapshot) _ hnames
          | ok _ => exact .revised n old hfind hnames hparams rfl hvalid ports

/-! ## Adding a node -/

/-- What adding a node comes to: an answer, and what it leaves with what it records. -/
inductive Enrolls (s : Roster) (r : NodeRequest) (now : Instant) : Except NodeError Node × Roster → Prop where
  | refused (e : NodeError) : Enrolls s r now (.error e, s)
  | portless (e : NodeError) (ports : Ports) :
    Enrolls s r now (.error e, record { s with ports } pendingOwner .create none none (some e) now)
  | undone (e : NodeError) (n : Node) (id_eq : n.id = s.nodes.nextId) (ports : Ports) :
    Enrolls s r now (.error e, record
      { s with ports, nodes := (s.nodes.insert (NodeRow.ofNode n)).eraseId n.id } n.id .create none
      (some n.snapshot) (some e) now)
  | enrolled (n : Node) (names : checkNames r.name r.host = .ok ())
    (params : parseParams r.protocol r.params = .ok n.params)
    (requested : n = nodeOf r n.params s.nodes.nextId n.port now) (valid : s.checkDocument n = .ok ())
    (ports : Ports) :
    Enrolls s r now (.ok n, record { s with ports, nodes := s.nodes.insert (NodeRow.ofNode n) } n.id .create none
      (some n.snapshot) none now)

theorem create_enrolls (s : Roster) (refused : UInt16 → Bool) (r : NodeRequest) (now : Instant) :
    Enrolls s r now (s.create refused r now) := by
  unfold create
  cases hnames : checkNames r.name r.host with
  | error fault => exact .refused _
  | ok _ =>
    dsimp only
    cases hparams : parseParams r.protocol r.params with
    | error e => exact .refused e
    | ok params =>
      dsimp only
      rcases takePort s.ports refused r.port pendingOwner now with ⟨e | port, ports⟩
      · exact .portless _ ports
      · let n : Node := nodeOf r params s.nodes.nextId port now
        show Enrolls s r now (enroll { s with ports } r params port now)
        unfold enroll
        dsimp only
        rcases ports.assign port n.id with ⟨e | _, held⟩
        · exact .undone _ n rfl _
        · -- whether the document is valid depends on the settings only
          have hcheck : (do
              Except.mapError NodeError.port (.ok () : Except PortError Unit)
              checkDocument { s with ports } n) = s.checkDocument n := rfl
          dsimp only
          rw [hcheck]
          cases hvalid : s.checkDocument n with
          | error e => exact .undone e n rfl _
          | ok _ => exact .enrolled n hnames hparams rfl hvalid held

/-! ## Removing a node -/

/-- What removing a node comes to: an answer, and what it leaves with what it records. -/
inductive Removes (s : Roster) (id : Int) (now : Instant) : Except NodeError (List UInt16) × Roster → Prop where
  | refused (e : NodeError) (missing : s.find id now = .error e) : Removes s id now (.error e, s)
  | removed (released : List UInt16) (old : Node) (find : s.find id now = .ok old) (ports : Ports) :
    Removes s id now (.ok released, record { s with ports, nodes := s.nodes.eraseId id } id .delete
      (some old.snapshot) none none now)

theorem delete_removes (s : Roster) (id : Int) (now : Instant) : Removes s id now (s.delete id now) := by
  unfold delete
  cases hfind : s.find id now with
  | error e => exact .refused e hfind
  | ok old => exact .removed _ old hfind _

end ProxyFleet.Roster

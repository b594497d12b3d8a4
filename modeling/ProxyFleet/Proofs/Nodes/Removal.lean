import ProxyFleet.Proofs.Nodes.Run

/-!
# What is left of a node that was removed

To remove a node gives back the ports that are held for it. A port that is recorded for it outside
the range is not held, as when the services have started anew with another range: its record stays,
and the port is held for the removed node again once the range has it.

* `RosterCall.OnNodes` : a call on nodes, or one that starts anew;
* `delete_effect` : what is removed, and that a record outside the range is not;
* `Roster.Gone` : nothing is left of a node; every call on nodes keeps this (`Gone.call`);
* `delete_gone_iff` : when nothing is left of a node that was removed, whatever is called later.
-/

namespace ProxyFleet

set_option autoImplicit false

/-- A call on nodes, or one that starts anew. -/
def RosterCall.OnNodes : RosterCall → Prop
  | create _ _ | update _ _ _ | delete _ | reopen _ _ => True
  | ports _ => False

instance (t : PortTable) (port : UInt16) (h : Holder) : Decidable (t.Records port h) :=
  inferInstanceAs (Decidable (∃ e ∈ t.rows, _))

namespace Roster

variable {s s' : Roster} {refused : UInt16 → Bool} {id : Int}

/-! ## The ids of nodes -/

theorem nextId_enroll (s : Roster) (r : NodeRequest) (params : Params) (port : UInt16) (now : Instant) :
    (s.enroll r params port now).2.nodes.nextId = s.nodes.nextId + 1 := by
  unfold enroll
  dsimp only
  split
  · rfl
  · rfl

/-- An id that was given, be it to a node that was not kept, is not given again. -/
theorem nextId_le_create (s : Roster) (refused : UInt16 → Bool) (r : NodeRequest) (now : Instant) :
    s.nodes.nextId ≤ (s.create refused r now).2.nodes.nextId := by
  unfold create
  cases checkNames r.name r.host with
  | error fault => exact Int.le_refl _
  | ok _ =>
    cases parseParams r.protocol r.params with
    | error e => exact Int.le_refl _
    | ok params =>
      rcases takePort s.ports refused r.port pendingOwner now with ⟨_ | port, ports⟩
      · exact Int.le_refl _
      · have := nextId_enroll { s with ports } r params port now
        dsimp only at this ⊢
        omega

theorem Updates.nextId {move : Option (UInt16 × UInt16)} {r : Except NodeError Node × Roster}
    (hu : Updates s refused id move r) : r.2.nodes.nextId = s.nodes.nextId := by
  cases hu with
  | rejected e s' nodes ports => rw [nodes]
  | rewritten n s' row get port id_eq nodes ports => rw [nodes]; rfl
  | failed e s' row old wanted get port ne nodes agrees range table => rw [nodes]
  | moved n s' row old get port ne free id_eq nodes agrees range table => rw [nodes]; rfl

/-! ## What is removed -/

/-- To remove a node takes its row and the ports that are held for it, and nothing else. What is
recorded for it outside the range is not held, so it stays recorded. -/
theorem delete_effect (h : s.Sound) {now : Instant} (hok : (s.delete id now).1.isOk = true) :
    let s' := (s.delete id now).2
    s'.nodes = s.nodes.eraseId id ∧
    ∀ p x, (s'.ports.holder? p = some x ↔ s.ports.holder? p = some x ∧ x.owner ≠ id) ∧
      (s'.ports.table.holder? p = some x ↔
        s.ports.table.holder? p = some x ∧ (x.owner = id → s.ports.range.contains p = false)) := by
  rcases delete_cases h.ports id now with ⟨e, heq⟩ | ⟨ports, s', heq, hnodes, hagrees, hrange, htable⟩
  · rw [heq] at hok
    cases hok
  rw [heq]
  have hmem : ∀ p, p ∈ s.ports.ofOwner id ↔ ∃ x, s.ports.holder? p = some x ∧ x.owner = id := fun p =>
    h.ports.ascending.mem_ofOwner
  have hrecorded : ∀ p x, s'.ports.table.holder? p = some x ↔
      s.ports.table.holder? p = some x ∧ (x.owner = id → s.ports.range.contains p = false) := by
    intro p x
    rw [htable]
    split_ifs with hp
    · obtain ⟨y, hy, hid⟩ := (hmem p).1 hp
      have hy' := h.ports.recorded_of_held hy
      simp only [hy', Option.some.injEq, false_iff, not_and]
      rintro rfl hout
      exact Bool.false_ne_true ((hout hid).symm.trans (h.ports.contains_of_held hy))
    · refine ⟨fun hx => ⟨hx, fun hid => ?_⟩, And.left⟩
      by_contra hc
      exact hp ((hmem p).2 ⟨x, h.ports.held_of_recorded hx (by simpa using hc), hid⟩)
  -- what is held is what is recorded inside the range, before and after
  refine ⟨hnodes, fun p x => ⟨?_, hrecorded p x⟩⟩
  rw [hagrees.agree, h.ports.agree, hrange]
  split_ifs with hc
  · rw [hrecorded]
    simp [hc]
  · simp

/-! ## Nodes of which nothing is left -/

/-- Nothing is left of a node: its id was given, no row has it, and no port is recorded for it. -/
structure Gone (s : Roster) (id : Int) : Prop where
  used : id < s.nodes.nextId
  no_row : ∀ e ∈ s.nodes.rows, e.1 ≠ id
  no_port : ∀ p x, s.ports.table.holder? p = some x → x.owner ≠ id

/-- A change of a node gives ports to that node only. -/
theorem Updates.recorded {move : Option (UInt16 × UInt16)} {r : Except NodeError Node × Roster}
    (hu : Updates s refused id move r) {p : UInt16} {x : Holder}
    (hx : r.2.ports.table.holder? p = some x) :
    s.ports.table.holder? p = some x ∨ x = .node id ∧ ∃ row, s.nodes.get? id = some row := by
  have hupdate : ∀ {f : UInt16 → Option Holder} {q : UInt16} {y : Option Holder},
      (y = none ∨ y = some (.node id)) → Function.update f q y p = some x → f p = some x ∨ x = .node id := by
    intro f q y hy hx
    rw [Function.update_apply] at hx
    split_ifs at hx
    · rcases hy with rfl | rfl
      · cases hx
      · exact .inr (Option.some.inj hx).symm
    · exact .inl hx
  have hmoved : ∀ {old wanted : UInt16}, movedHolders s.ports id old wanted p = some x →
      s.ports.table.holder? p = some x ∨ x = .node id := fun hx =>
    (hupdate (.inr rfl) hx).elim (hupdate (.inl rfl)) .inr
  cases hu with
  | rejected e s' nodes ports => exact .inl (ports ▸ hx)
  | rewritten n s' row get port id_eq nodes ports => exact .inl (ports ▸ hx)
  | failed e s' row old wanted get port ne nodes agrees range table =>
    have hfailed : s.ports.table.holder? p = some x ∨ x = .node id := by
      rw [table, failedHolders] at hx
      split_ifs at hx
      · exact hmoved hx
      · refine hupdate ?_ hx
        split_ifs
        · exact .inr rfl
        · exact .inl rfl
    exact hfailed.imp_right fun hid => ⟨hid, row, get⟩
  | moved n s' row old get port ne free id_eq nodes agrees range table =>
    rw [table] at hx
    exact (hmoved hx).imp_right fun hid => ⟨hid, row, get⟩

namespace Gone

theorem creates {r : Except NodeError Node × Roster} (h : s.Gone id)
    (hnext : s.nodes.nextId ≤ r.2.nodes.nextId) (hc : Creates s refused r) : r.2.Gone id := by
  have hused : id < r.2.nodes.nextId := Int.lt_of_lt_of_le h.used hnext
  cases hc with
  | failed e s' rows numbered agrees range table =>
    exact ⟨hused, fun e he => h.no_row e (rows ▸ he), fun p x hx => h.no_port p x (table ▸ hx)⟩
  | added n s' row port free id_eq nodes agrees range table =>
    -- The new node has an id that was not given before.
    have hne : n.id ≠ id := by
      have := h.used
      omega
    refine ⟨hused, fun e he => ?_, fun p x hx => ?_⟩
    · rw [nodes] at he
      rcases List.mem_append.1 he with he | he
      · exact h.no_row e he
      · rw [List.mem_singleton.1 he]
        exact id_eq ▸ hne
    · rw [table, Function.update_apply] at hx
      split_ifs at hx
      · cases hx
        exact hne
      · exact h.no_port p x hx

theorem updates {id' : Int} {move : Option (UInt16 × UInt16)} {r : Except NodeError Node × Roster}
    (h : s.Gone id) (hu : Updates s refused id' move r) : r.2.Gone id := by
  refine ⟨hu.nextId ▸ h.used, fun e he => ?_, fun p x hx => ?_⟩
  · have hrows : r.2.nodes = s.nodes ∨ ∃ n, r.2.nodes = s.nodes.write n := by
      cases hu with
      | rejected e s' nodes ports => exact .inl nodes
      | rewritten n s' row get port id_eq nodes ports => exact .inr ⟨n, nodes⟩
      | failed e s' row old wanted get port ne nodes agrees range table => exact .inl nodes
      | moved n s' row old get port ne free id_eq nodes agrees range table => exact .inr ⟨n, nodes⟩
    rcases hrows with hrows | ⟨n, hrows⟩
    · exact h.no_row e (hrows ▸ he)
    · rw [hrows, NodeTable.write, Table.rows_modifyId] at he
      obtain ⟨e', he', rfl⟩ := List.mem_map.1 he
      split_ifs
      · exact h.no_row e' he'
      · exact h.no_row e' he'
  · rcases hu.recorded hx with hx | ⟨rfl, row, hget⟩
    · exact h.no_port p x hx
    · exact h.no_row _ (Table.mem_rows_of_get? hget)

theorem delete (hs : s.Sound) (h : s.Gone id) (id' : Int) (now : Instant) : (s.delete id' now).2.Gone id := by
  rcases delete_cases hs.ports id' now with ⟨e, heq⟩ | ⟨ports, s', heq, hnodes, -, -, htable⟩
  · rw [heq]
    exact h
  · rw [heq]
    refine ⟨by rw [hnodes]; exact h.used, fun e he => ?_, fun p x hx => ?_⟩
    · rw [hnodes, Table.rows_eraseId] at he
      exact h.no_row e (List.mem_filter.1 he).1
    · rw [htable] at hx
      split_ifs at hx
      exact h.no_port p x hx

/-- No call on nodes brings anything of the node back. -/
theorem call (hs : s.Sound) (h : s.Gone id) (now : Instant) {c : RosterCall} (hc : c.OnNodes) :
    (s.call now c).Gone id := by
  cases c with
  | create refused request =>
    exact h.creates (nextId_le_create s refused request now)
      (create_creates hs.ports hs.nodes refused request now)
  | update refused id' change => exact h.updates (update_updates hs.ports refused id' change now)
  | delete id' => exact h.delete hs id' now
  | reopen settings range =>
    obtain ⟨n, ports, heq, -, -, htable⟩ := reopen_eq hs.ports settings range now
    rw [Roster.call, heq]
    exact ⟨h.used, h.no_row, fun p x hx => h.no_port p x (htable ▸ hx)⟩
  | ports c => exact hc.elim

theorem run (hs : s.Sound) (h : s.Gone id) {calls : List (Instant × RosterCall)}
    (hc : ∀ c ∈ calls, c.2.OnNodes) : (s.run calls).Gone id := by
  induction calls generalizing s with
  | nil => exact h
  | cons c calls ih =>
    exact ih (hs.call c.1 c.2) (h.call hs c.1 (hc c (by simp))) fun d hd => hc d (by simp [hd])

end Gone

/-- A node that was removed is gone, if no port was recorded for it outside the range. -/
theorem delete_gone (h : s.Sound) {now : Instant} (hok : (s.delete id now).1.isOk = true)
    (hin : ∀ p x, x.owner = id → s.ports.table.holder? p = some x → s.ports.range.contains p = true) :
    (s.delete id now).2.Gone id := by
  obtain ⟨hnodes, heffect⟩ := delete_effect h hok
  have hused : id < s.nodes.nextId := by
    cases hfind : s.find id now with
    | error e =>
      rw [delete, hfind] at hok
      cases hok
    | ok n =>
      obtain ⟨-, row, hget, -⟩ := find_eq_ok hfind
      exact h.nodes.below _ (Table.mem_rows_of_get? hget)
  refine ⟨by rw [hnodes]; exact hused, fun e he => ?_, fun p x hx hid => ?_⟩
  · rw [hnodes, Table.rows_eraseId] at he
    simpa using (List.mem_filter.1 he).2
  · obtain ⟨hx, hout⟩ := (heffect p x).2.1 hx
    exact Bool.false_ne_true ((hout hid).symm.trans (hin p x hid hx))

/-- A port that is held for a node, or recorded as the node's. -/
def Owns (s : Roster) (id : Int) (p : UInt16) : Prop :=
  ∃ x : Holder, x.owner = id ∧ (s.ports.holder? p = some x ∨ s.ports.table.Records p x)

theorem Gone.not_owns (hs : s.Sound) (h : s.Gone id) (p : UInt16) : ¬s.Owns id p := by
  rintro ⟨x, hid, hx | hx⟩
  · exact h.no_port p x (hs.ports.recorded_of_held hx) hid
  · exact h.no_port p x (hs.ports.sound.records_iff.1 hx) hid

/-- **What is left of a node that was removed.** Its row is gone, no port is held for it, and all other
rows and the ports of all others are as they were. It owns no port either, now or after any later
calls on nodes, exactly if no port was recorded for it outside the range. -/
theorem delete_gone_iff (settings : EngineSettings) (range : PortSettings)
    (calls : List (Instant × RosterCall)) (id : Int) (now : Instant)
    (hok : (((empty settings range).run calls).delete id now).1.isOk = true) :
    let s := (empty settings range).run calls
    let s' := (s.delete id now).2
    s'.nodes.rows = s.nodes.rows.filter (fun e => e.1 ≠ id) ∧
    (∀ p x, s'.ports.holder? p = some x ↔ s.ports.holder? p = some x ∧ x.owner ≠ id) ∧
    (∀ p x, x.owner ≠ id → (s'.ports.table.Records p x ↔ s.ports.table.Records p x)) ∧
    ((∀ later, (∀ c ∈ later, c.2.OnNodes) → ∀ p, ¬(s'.run later).Owns id p) ↔
      ∀ p x, x.owner = id → s.ports.table.Records p x → s.ports.range.contains p = true) := by
  intro s s'
  have h : s.Sound := (Sound.empty settings range).run calls
  have h' : s'.Sound := h.delete id now
  obtain ⟨hnodes, heffect⟩ := delete_effect h hok
  simp only [h.ports.sound.records_iff, h'.ports.sound.records_iff]
  refine ⟨?_, fun p x => (heffect p x).1, fun p x hne => ?_, fun hleft p x hid hx => ?_,
    fun hin later hlater p => ?_⟩
  · show s'.nodes.rows = _
    rw [hnodes, Table.rows_eraseId]
    refine List.filter_congr fun e _ => ?_
    rw [Bool.eq_iff_iff]
    simp
  · rw [(heffect p x).2]
    exact ⟨And.left, fun hx => ⟨hx, fun hid => absurd hid hne⟩⟩
  · by_contra hc
    have hstays := (heffect p x).2.2 ⟨hx, fun _ => by simpa using hc⟩
    exact hleft [] (by simp) p ⟨x, hid, .inr (h'.ports.sound.records_iff.2 hstays)⟩
  · exact ((delete_gone h hok hin).run h' hlater).not_owns (h'.run later) p

/-- A range that has no port with the sample range in common. -/
def otherRange : PortSettings := { first := 20000, last := 20010 }

/-- Two nodes, and a range that comes back after another one. -/
def removalCalls : List (Instant × RosterCall) :=
  [.create (fun _ => false) (sampleRequest "a"), .create (fun _ => false) (sampleRequest "b"),
    .reopen {} otherRange, .reopen {} sampleRange].map (⟨0⟩, ·)

theorem delete_gone_iff_removalCalls :
    let s := (empty {} sampleRange).run removalCalls
    let s' := (s.delete 1 ⟨0⟩).2
    (s.delete 1 ⟨0⟩).1.isOk = true ∧
    s'.nodes.rows = s.nodes.rows.filter (fun e => e.1 ≠ 1) ∧
    (∀ p x, s'.ports.holder? p = some x ↔ s.ports.holder? p = some x ∧ x.owner ≠ 1) ∧
    (∀ p x, x.owner ≠ 1 → (s'.ports.table.Records p x ↔ s.ports.table.Records p x)) ∧
    ((∀ later, (∀ c ∈ later, c.2.OnNodes) → ∀ p, ¬(s'.run later).Owns 1 p) ↔
      ∀ p x, x.owner = 1 → s.ports.table.Records p x → s.ports.range.contains p = true) := by
  have hok : (((empty {} sampleRange).run removalCalls).delete 1 ⟨0⟩).1.isOk = true := by decide +kernel
  exact ⟨hok, delete_gone_iff {} sampleRange removalCalls 1 ⟨0⟩ hok⟩

/-- A node whose port the range no longer has is removed, and its port stays recorded; when the range
has the port again, it is held for the node that is gone. -/
theorem delete_leaves_record :
    let s := (empty {} sampleRange).run
      [(⟨0⟩, .create (fun _ => false) (sampleRequest "a")), (⟨0⟩, .reopen {} otherRange)]
    let s' := (s.delete 1 ⟨0⟩).2
    (s.delete 1 ⟨0⟩).1.isOk = true ∧ s'.nodes.rows.length = 0 ∧ s'.ports.table.Records 10000 (.node 1) ∧
    (s'.reopen {} sampleRange ⟨0⟩).2.ports.holder? 10000 = some (.node 1) := by
  decide +kernel

end Roster

end ProxyFleet

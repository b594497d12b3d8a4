import ProxyFleet.Proofs.Nodes.Run

/-!
# Nodes and ports correspond

As long as neither the range nor what is refused changes, every node holds the port that its row
names, and every port that a node holds is one of these. A change of a node that fails keeps this
because the port that it gives up was accepted before, so it is accepted again.

* `RosterCall.Steady` : the calls that may be made;
* `Roster.Matched` : what each of them keeps (`Matched.call`), stated of the rows of both tables;
* `run_one_to_one` : the correspondence after every run from nothing.
-/

namespace ProxyFleet

set_option autoImplicit false

theorem NodeTable.mem_write {t : NodeTable} {n : Node} {e : Int × NodeRow} :
    e ∈ (t.write n).rows ↔ (e ∈ t.rows ∧ e.1 ≠ n.id) ∨
      ∃ row, (n.id, row) ∈ t.rows ∧ e = (n.id, { NodeRow.ofNode n with createdAt := row.createdAt }) := by
  rw [write, Table.rows_modifyId, List.mem_map]
  constructor
  · rintro ⟨e', he, rfl⟩
    split_ifs with hid
    · exact .inr ⟨e'.2, hid ▸ he, by rw [hid]⟩
    · exact .inl ⟨he, hid⟩
  · rintro (⟨he, hid⟩ | ⟨row, he, rfl⟩)
    · exact ⟨e, he, if_neg hid⟩
    · exact ⟨_, he, if_pos rfl⟩

/-- A call with this range and these refused ports, that does not take ports for anyone but nodes and
the system. -/
def RosterCall.Steady (range : PortSettings) (refused : UInt16 → Bool) : RosterCall → Prop
  | create r _ | update r _ _ | ports (.scan r) => r = refused
  | delete _ => True
  | reopen _ r => r = range
  | ports _ => False

namespace Roster

/-- The nodes have the ports that are recorded for nodes. -/
structure Matched (range : PortSettings) (refused : UInt16 → Bool) (s : Roster) : Prop where
  sound : s.Sound
  range_eq : s.ports.range = range
  contained : ∀ p x, s.ports.table.holder? p = some x → range.contains p = true
  holds : ∀ e ∈ s.nodes.rows, ∃ p : UInt16, e.2.port = p.toNat ∧
    s.ports.table.holder? p = some (.node e.1) ∧ refused p = false
  owned : ∀ p x, s.ports.table.holder? p = some x →
    x.owner = systemOwner ∨ ∃ row, (x.owner, row) ∈ s.nodes.rows ∧ row.port = p.toNat

namespace Matched

variable {range : PortSettings} {refused : UInt16 → Bool} {s s' : Roster}

/-- All that is recorded is held. -/
theorem holder?_eq (h : s.Matched range refused) (p : UInt16) :
    s.ports.holder? p = s.ports.table.holder? p := by
  rw [h.sound.ports.agree, h.range_eq]
  split_ifs with hc
  · rfl
  · cases hp : s.ports.table.holder? p with
    | none => rfl
    | some x => exact absurd (h.contained p x hp) hc

/-- The node of a row is recorded as the holder of its port, which is not refused. -/
theorem holds_get (h : s.Matched range refused) {id : Int} {row : NodeRow} {p : UInt16}
    (hget : s.nodes.get? id = some row) (hport : row.port = p.toNat) :
    s.ports.table.holder? p = some (.node id) ∧ refused p = false := by
  obtain ⟨q, hq, hholder, hr⟩ := h.holds _ (Table.mem_rows_of_get? hget)
  have hnat : (q.toNat : Int) = p.toNat := hq.symm.trans hport
  obtain rfl : q = p := UInt16.toNat_inj.1 (by omega)
  exact ⟨hholder, hr⟩

theorem empty (settings : EngineSettings) : (Roster.empty settings range).Matched range refused where
  sound := Sound.empty settings range
  range_eq := rfl
  contained := nofun
  holds := nofun
  owned := nofun

/-- What leaves rows and holders as they are. -/
theorem of_eq (h : s.Matched range refused) (hs : s'.Sound) (hrange : s'.ports.range = s.ports.range)
    (hrows : s'.nodes.rows = s.nodes.rows) (htable : s'.ports.table.holder? = s.ports.table.holder?) :
    s'.Matched range refused where
  sound := hs
  range_eq := hrange.trans h.range_eq
  contained p x hx := h.contained p x (htable ▸ hx)
  holds e he := by
    rw [htable]
    exact h.holds e (hrows ▸ he)
  owned p x hx := by
    rw [hrows]
    exact h.owned p x (htable ▸ hx)

/-- A node that is added at a port which was free. -/
theorem insert (h : s.Matched range refused) (hs : s'.Sound) (hrange : s'.ports.range = s.ports.range)
    {p : UInt16} {row : NodeRow} (hport : row.port = p.toNat) (hfree : s.ports.Free refused p)
    (hnodes : s'.nodes = s.nodes.insert row)
    (htable : s'.ports.table.holder? =
      Function.update s.ports.table.holder? p (some (.node s.nodes.nextId))) : s'.Matched range refused where
  sound := hs
  range_eq := hrange.trans h.range_eq
  contained q x hx := by
    rw [htable, Function.update_apply] at hx
    split_ifs at hx with hq
    · rw [hq, ← h.range_eq]
      exact hfree.1
    · exact h.contained q x hx
  holds e he := by
    rw [hnodes] at he
    rcases List.mem_append.1 he with he | he
    · obtain ⟨q, hq, hholder, hr⟩ := h.holds e he
      have hne : q ≠ p := by
        rintro rfl
        rw [← h.holder?_eq, hfree.2.1] at hholder
        cases hholder
      exact ⟨q, hq, by rw [htable, Function.update_of_ne hne, hholder], hr⟩
    · rw [List.mem_singleton.1 he]
      exact ⟨p, hport, by rw [htable, Function.update_self], hfree.2.2⟩
  owned q x hx := by
    rw [htable, Function.update_apply] at hx
    rw [hnodes]
    split_ifs at hx with hq
    · cases hx
      exact .inr ⟨row, by simp [Holder.node], hq ▸ hport⟩
    · obtain hsys | ⟨row', hmem, hport'⟩ := h.owned q x hx
      · exact .inl hsys
      · exact .inr ⟨row', List.mem_append_left _ hmem, hport'⟩

/-- A node that is written over its row, at the port it had or at one that was free. -/
theorem write (h : s.Matched range refused) (hs : s'.Sound) (hrange : s'.ports.range = s.ports.range)
    {id : Int} {row : NodeRow} {old : UInt16} {n : Node} (hget : s.nodes.get? id = some row)
    (hport : row.port = old.toNat) (hid : n.id = id) (hnew : n.port = old ∨ s.ports.Free refused n.port)
    (hnodes : s'.nodes = s.nodes.write n)
    (htable : s'.ports.table.holder? = movedHolders s.ports id old n.port) : s'.Matched range refused := by
  subst hid
  obtain ⟨hold, hrefused⟩ := h.holds_get hget hport
  have hrow := Table.mem_rows_of_get? hget
  have hcontains : range.contains n.port = true := by
    rcases hnew with heq | hfree
    · rw [heq]
      exact h.contained old _ hold
    · rw [← h.range_eq]
      exact hfree.1
  refine ⟨hs, hrange.trans h.range_eq, fun q x hx => ?_, fun e he => ?_, fun q x hx => ?_⟩
  · rw [htable, movedHolders, Function.update_apply, Function.update_apply] at hx
    split_ifs at hx with hq hq'
    · exact hq ▸ hcontains
    · exact h.contained q x hx
  · rw [hnodes] at he
    rcases NodeTable.mem_write.1 he with ⟨he, hne⟩ | ⟨row', -, rfl⟩
    · obtain ⟨q, hq, hholder, hr⟩ := h.holds e he
      have hq₁ : q ≠ old := by
        rintro rfl
        exact hne (Holder.node_inj (Option.some.inj (hholder.symm.trans hold)))
      have hq₂ : q ≠ n.port := by
        rintro rfl
        rcases hnew with heq | hfree
        · exact hq₁ heq
        · rw [← h.holder?_eq, hfree.2.1] at hholder
          cases hholder
      refine ⟨q, hq, ?_, hr⟩
      rw [htable, movedHolders, Function.update_of_ne hq₂, Function.update_of_ne hq₁, hholder]
    · refine ⟨n.port, rfl, by rw [htable, movedHolders, Function.update_self], ?_⟩
      rcases hnew with heq | hfree
      · exact heq ▸ hrefused
      · exact hfree.2.2
  · rw [htable, movedHolders, Function.update_apply, Function.update_apply] at hx
    rw [hnodes]
    split_ifs at hx with hq hq'
    · cases hx
      exact .inr ⟨_, NodeTable.mem_write.2 (.inr ⟨row, hrow, rfl⟩), by rw [hq]; rfl⟩
    · obtain hsys | ⟨row', hmem, hport'⟩ := h.owned q x hx
      · exact .inl hsys
      · refine .inr ⟨row', NodeTable.mem_write.2 (.inl ⟨hmem, fun hid => ?_⟩), hport'⟩
        -- The row of the node itself names its old port, which is none of the others.
        have heq := h.sound.nodes.eq_of_id_eq hmem hrow hid
        have hrow' : row' = row := congrArg Prod.snd heq
        rw [hrow', hport] at hport'
        exact hq' (UInt16.toNat_inj.1 (by omega))

/-! ## Calls -/

theorem creates (h : s.Matched range refused) {r : Except NodeError Node × Roster}
    (hc : Creates s refused r) : r.2.Matched range refused := by
  have hs := hc.sound h.sound
  cases hc with
  | failed e s' rows numbered agrees range_eq table => exact h.of_eq hs range_eq rows table
  | added n s' row port free id_eq nodes agrees range_eq table =>
    rw [id_eq] at table
    exact h.insert hs range_eq port free nodes table

theorem updates (h : s.Matched range refused) {id : Int} {move : Option (UInt16 × UInt16)}
    {r : Except NodeError Node × Roster} (hu : Updates s refused id move r) : r.2.Matched range refused := by
  have hs := hu.sound h.sound
  cases hu with
  | rejected e s' nodes ports => exact h.of_eq hs (by rw [ports]) (by rw [nodes]) (by rw [ports])
  | rewritten n s' row get port id_eq nodes ports =>
    refine h.write hs (by rw [ports]) get port id_eq (.inl rfl) nodes ?_
    rw [ports, movedHolders_self (h.holds_get get port).1]
  | failed e s' row old wanted get port ne nodes agrees range_eq table =>
    obtain ⟨hold, hrefused⟩ := h.holds_get get port
    have hadmits : s.ports.Admits refused old := ⟨h.range_eq ▸ h.contained old _ hold, hrefused⟩
    rw [failedHolders_of_admits hold hadmits] at table
    exact h.of_eq hs range_eq (by rw [nodes]) table
  | moved n s' row old get port ne free id_eq nodes agrees range_eq table =>
    exact h.write hs range_eq get port id_eq (.inr free) nodes table

theorem delete (h : s.Matched range refused) (id : Int) (now : Instant) :
    (s.delete id now).2.Matched range refused := by
  have hs := h.sound.delete id now
  rcases delete_cases h.sound.ports id now with ⟨e, heq⟩ | ⟨ports, s', heq, hnodes, -, hrange, htable⟩
  · rw [heq]
    exact h
  rw [heq] at hs ⊢
  have howner : ∀ p x, s.ports.table.holder? p = some x → (p ∈ s.ports.ofOwner id ↔ x.owner = id) := by
    intro p x hx
    rw [h.sound.ports.ascending.mem_ofOwner, h.holder?_eq, hx]
    simp
  refine ⟨hs, hrange.trans h.range_eq, fun p x hx => ?_, fun e he => ?_, fun p x hx => ?_⟩
  · rw [htable] at hx
    split_ifs at hx
    exact h.contained p x hx
  · rw [hnodes, Table.rows_eraseId] at he
    obtain ⟨he, hid⟩ := List.mem_filter.1 he
    obtain ⟨p, hp, hholder, hr⟩ := h.holds e he
    have hkept : p ∉ s.ports.ofOwner id := by
      rw [howner p _ hholder]
      simpa [Holder.node] using hid
    exact ⟨p, hp, by rw [htable, if_neg hkept, hholder], hr⟩
  · rw [htable] at hx
    split_ifs at hx with hp
    rw [howner p x hx] at hp
    obtain hsys | ⟨row, hmem, hport⟩ := h.owned p x hx
    · exact .inl hsys
    · refine .inr ⟨row, ?_, hport⟩
      rw [hnodes, Table.rows_eraseId, List.mem_filter]
      exact ⟨hmem, by simpa using hp⟩

theorem scan (h : s.Matched range refused) (now : Instant) :
    Matched range refused { s with ports := (s.ports.scan refused now).2 } := by
  obtain ⟨ports, heq, hagrees, hrange, -, htable⟩ := h.sound.ports.scan_eq refused now
  rw [heq]
  refine ⟨⟨hagrees, h.sound.nodes⟩, hrange.trans h.range_eq, fun p x hx => ?_, fun e he => ?_,
    fun p x hx => ?_⟩
  · rw [htable] at hx
    split_ifs at hx with hf
    · exact h.range_eq ▸ hf.1
    · exact h.contained p x hx
  · obtain ⟨p, hp, hholder, hr⟩ := h.holds e he
    have hown : ¬s.ports.Foreign refused p := by
      rintro ⟨-, -, hrefused⟩
      rw [hr] at hrefused
      cases hrefused
    exact ⟨p, hp, by rw [htable, if_neg hown, hholder], hr⟩
  · rw [htable] at hx
    split_ifs at hx with hf
    · cases hx
      exact .inl rfl
    · exact h.owned p x hx

/-- Each call keeps the correspondence, as long as range and refused ports stay. -/
theorem call (h : s.Matched range refused) (now : Instant) {c : RosterCall} (hc : c.Steady range refused) :
    (s.call now c).Matched range refused := by
  cases c with
  | create r request =>
    obtain rfl : r = refused := hc
    exact h.creates (create_creates h.sound.ports h.sound.nodes r request now)
  | update r id change =>
    obtain rfl : r = refused := hc
    exact h.updates (update_updates h.sound.ports r id change now)
  | delete id => exact h.delete id now
  | reopen settings r =>
    obtain rfl : r = range := hc
    obtain ⟨n, ports, heq, hagrees, hrange, htable⟩ := reopen_eq h.sound.ports settings r now
    rw [Roster.call, heq]
    exact h.of_eq ⟨hagrees, h.sound.nodes⟩ (hrange.trans h.range_eq.symm) rfl (by rw [htable])
  | ports c =>
    cases c with
    | scan r =>
      obtain rfl : r = refused := hc
      exact h.scan now
    | _ => exact hc.elim

theorem run (h : s.Matched range refused) {calls : List (Instant × RosterCall)}
    (hc : ∀ c ∈ calls, c.2.Steady range refused) : (s.run calls).Matched range refused := by
  induction calls generalizing s with
  | nil => exact h
  | cons c calls ih => exact ih (h.call c.1 (hc c (by simp))) fun d hd => hc d (by simp [hd])

/-- No two nodes have the same port. -/
theorem ports_ne (h : s.Matched range refused) : s.nodes.rows.Pairwise (·.2.port ≠ ·.2.port) := by
  refine h.sound.nodes.ascending.imp_of_mem fun {e f} he hf hlt heq => ?_
  obtain ⟨p, hp, hholder, -⟩ := h.holds e he
  obtain ⟨q, hq, hholder', -⟩ := h.holds f hf
  have hnat : (p.toNat : Int) = q.toNat := by rw [← hp, heq, hq]
  obtain rfl : p = q := UInt16.toNat_inj.1 (by omega)
  have hid := Holder.node_inj (Option.some.inj (hholder.symm.trans hholder'))
  omega

end Matched

/-- Nodes and the ports that are held for them correspond one to one. -/
structure OneToOne (range : PortSettings) (s : Roster) : Prop where
  /-- Each node holds the port that its row names, and the port is in the range. -/
  held : ∀ e ∈ s.nodes.rows, ∃ p : UInt16, e.2.port = p.toNat ∧ range.contains p = true ∧
    s.ports.holder? p = some ⟨e.1, .inbound⟩
  /-- A port that is held for a node is the one that the node's row names. -/
  named : ∀ p x, s.ports.holder? p = some x → 1 ≤ x.owner →
    ∃ row, (x.owner, row) ∈ s.nodes.rows ∧ row.port = p.toNat
  /-- No port is held for a node that has no row yet. -/
  none_pending : ∀ p x, s.ports.holder? p = some x → x.owner ≠ pendingOwner
  ports_ne : s.nodes.rows.Pairwise (·.2.port ≠ ·.2.port)

/-- **Nodes and ports correspond one to one after every run** from nothing, with one range and one set
of refused ports: whatever is asked for, and whether or not it succeeds. -/
theorem run_one_to_one (settings : EngineSettings) (range : PortSettings) (refused : UInt16 → Bool)
    (calls : List (Instant × RosterCall)) (hc : ∀ c ∈ calls, c.2.Steady range refused) :
    ((empty settings range).run calls).OneToOne range := by
  have h := (Matched.empty settings).run hc
  refine ⟨fun e he => ?_, fun p x hx hpos => ?_, fun p x hx hpending => ?_, h.ports_ne⟩
  · obtain ⟨p, hp, hholder, -⟩ := h.holds e he
    exact ⟨p, hp, h.contained p _ hholder, (h.holder?_eq p).trans hholder⟩
  · obtain hsys | howned := h.owned p x ((h.holder?_eq p).symm.trans hx)
    · rw [hsys] at hpos
      exact absurd hpos (by decide)
    · exact howned
  · obtain hsys | ⟨row, hmem, -⟩ := h.owned p x ((h.holder?_eq p).symm.trans hx)
    · exact absurd (hsys.symm.trans hpending) (by decide)
    · have hpos : 1 ≤ x.owner := h.sound.nodes.pos _ hmem
      rw [hpending] at hpos
      exact absurd hpos (by decide)

/-- Calls of every kind, of which the first change of a node fails. -/
def steadyCalls : List (Instant × RosterCall) :=
  [.create (· == 10001) (sampleRequest "a"), .ports (.scan (· == 10001)),
    .create (· == 10001) (sampleRequest "b"), .update (· == 10001) 1 { port := some 10001 },
    .update (· == 10001) 1 { port := some 10005 }, .delete 2, .reopen {} sampleRange].map (⟨0⟩, ·)

theorem run_one_to_one_steadyCalls :
    (∀ c ∈ steadyCalls, c.2.Steady sampleRange (· == 10001)) ∧
    ((empty {} sampleRange).run steadyCalls).OneToOne sampleRange ∧
    ((empty {} sampleRange).run steadyCalls).nodes.rows.map (fun e => (e.1, e.2.port)) = [(1, 10005)] := by
  have hc : ∀ c ∈ steadyCalls, c.2.Steady sampleRange (· == 10001) := by
    simp [steadyCalls, RosterCall.Steady]
  exact ⟨hc, run_one_to_one {} sampleRange (· == 10001) steadyCalls hc, by decide +kernel⟩

end Roster

end ProxyFleet

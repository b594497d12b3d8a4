import ProxyFleet.Proofs.Nodes.Run

/-!
# What the change of a node does to the ports

A node moves by giving its port back before it takes another. What that costs when the move comes
to nothing, and when the row of the node names a port which the node no longer holds, is said here
exactly, for every roster that a run can reach.

* `update_failed_iff` : when a change that fails leaves all ports with their holders;
* `change_keepsOthers_iff` : when a change of a node leaves the ports of all others alone.
-/

namespace ProxyFleet

set_option autoImplicit false

namespace Roster

variable {s : Roster} {refused : UInt16 → Bool} {id : Int}

/-! ## Changes that fail -/

theorem failedHolders_eq_iff (h : s.ports.Agrees) {old wanted : UInt16} (hne : wanted ≠ old) :
    (∀ p, failedHolders s.ports refused id old wanted p = s.ports.table.holder? p) ↔
      s.ports.holder? old = some (.node id) ∧ refused old = false ∨
      s.ports.table.holder? old = none ∧ ¬s.ports.Free refused old ∧ ¬s.ports.Free refused wanted := by
  constructor
  · intro heq
    have hold := heq old
    by_cases ha : s.ports.Admits refused old
    · rw [failedHolders, if_neg fun hf => hf.2 ha, stayedHolders, if_pos ha, Function.update_self] at hold
      exact .inl ⟨h.held_of_recorded hold.symm ha.1, ha.2⟩
    · right
      have hnone : s.ports.table.holder? old = none := by
        rw [← hold, failedHolders]
        split_ifs
        · rw [movedHolders, Function.update_of_ne hne.symm, Function.update_self]
        · rw [stayedHolders, Function.update_self, if_neg ha]
      refine ⟨hnone, fun hf => ha (Ports.free_iff.1 hf).1, fun hf => ?_⟩
      -- A port that was free would now be the node's.
      have hwanted := heq wanted
      rw [failedHolders, if_pos ⟨hf, ha⟩, movedHolders, Function.update_self,
        h.unrecorded hf.1 hf.2.1] at hwanted
      cases hwanted
  · rintro (⟨hold, hr⟩ | ⟨hold, hno, hwanted⟩) p
    · rw [failedHolders_of_admits (h.recorded_of_held hold) ⟨h.contains_of_held hold, hr⟩]
    · have ha : ¬s.ports.Admits refused old := fun ha =>
        hno (Ports.free_iff.2 ⟨ha, h.not_held_of_unrecorded hold⟩)
      rw [failedHolders_of_not_free hwanted, stayedHolders, if_neg ha, ← hold, Function.update_eq_self]

theorem Updates.sameHolders_iff {move : Option (UInt16 × UInt16)} {r : Except NodeError Node × Roster}
    (h : s.Sound) (hu : Updates s refused id move r) (hfail : r.1.isOk = false) :
    r.2.nodes = s.nodes ∧ (s.ports.SameHolders r.2.ports ↔ ∀ old wanted, move = some (old, wanted) →
      s.ports.holder? old = some (.node id) ∧ refused old = false ∨
      s.ports.table.holder? old = none ∧ ¬s.ports.Free refused old ∧ ¬s.ports.Free refused wanted) := by
  cases hu with
  | rejected e s' nodes ports =>
    refine ⟨nodes, ?_⟩
    rw [ports]
    simp [Ports.SameHolders]
  | rewritten => cases hfail
  | failed e s' row old wanted get port ne nodes agrees range table =>
    refine ⟨nodes, ?_⟩
    rw [h.ports.sameHolders_iff agrees range, table, failedHolders_eq_iff h.ports ne]
    simp
  | moved => cases hfail

/-- **When a change that fails leaves all ports with their holders.** The nodes are always as before.
The ports are, if the change asks for no other port, or if the node held its port and the port is not
refused; and also if the port was nobody's and neither it nor the other one is to be had. In all other
cases they are not. -/
theorem update_failed_iff (settings : EngineSettings) (range : PortSettings)
    (calls : List (Instant × RosterCall)) (refused : UInt16 → Bool) (id : Int) (c : NodeChange) (now : Instant)
    (hfail : (((empty settings range).run calls).update refused id c now).1.isOk = false) :
    let s := (empty settings range).run calls
    let s' := (s.update refused id c now).2
    s'.nodes = s.nodes ∧ (s.ports.SameHolders s'.ports ↔
      ∀ old wanted, s.move? id c now = some (old, wanted) →
        s.ports.holder? old = some (.node id) ∧ refused old = false ∨
        s.ports.table.holder? old = none ∧ ¬s.ports.Free refused old ∧ ¬s.ports.Free refused wanted) := by
  have h := (Sound.empty settings range).run calls
  exact (update_updates h.ports refused id c now).sameHolders_iff h hfail

/-- A node that asks for a port outside the range, while its own is refused. -/
theorem update_failed_iff_sample :
    let s := (empty {} sampleRange).run [(⟨0⟩, .create (fun _ => false) (sampleRequest "a"))]
    let r := s.update (· == 10000) 1 { port := some 20000 } ⟨0⟩
    r.1.isOk = false ∧ r.2.nodes = s.nodes ∧ (s.ports.SameHolders r.2.ports ↔
      ∀ old wanted, s.move? 1 { port := some 20000 } ⟨0⟩ = some (old, wanted) →
        s.ports.holder? old = some (.node 1) ∧ (old == 10000) = false ∨
        s.ports.table.holder? old = none ∧ ¬s.ports.Free (· == 10000) old ∧
          ¬s.ports.Free (· == 10000) wanted) := by
  have hfail : (((empty {} sampleRange).run [(⟨0⟩, .create (fun _ => false) (sampleRequest "a"))]).update
      (· == 10000) 1 { port := some 20000 } ⟨0⟩).1.isOk = false := by decide +kernel
  exact ⟨hfail, update_failed_iff {} sampleRange _ _ 1 { port := some 20000 } ⟨0⟩ hfail⟩

/-- Such a node loses its port, so that not every change that fails leaves the ports as they were. -/
theorem update_failed_loses_port :
    ¬∀ (settings : EngineSettings) (range : PortSettings) (calls : List (Instant × RosterCall))
      (refused : UInt16 → Bool) (id : Int) (c : NodeChange) (now : Instant),
      let s := (empty settings range).run calls
      (s.update refused id c now).1.isOk = false → s.ports.SameHolders (s.update refused id c now).2.ports := by
  intro h
  have hsame := h {} sampleRange [(⟨0⟩, .create (fun _ => false) (sampleRequest "a"))] (· == 10000) 1
    { port := some 20000 } ⟨0⟩ (by decide +kernel)
  exact absurd (hsame.1 10000) (by decide +kernel)

/-! ## The ports of others -/

/-- What gives up one port at most, and leaves it to nobody or to one owner, takes it from another
exactly if another had it. -/
theorem keepsOthers_iff {t t' : UInt16 → Option Holder} {old : UInt16}
    (hkeep : ∀ p x, p ≠ old → t p = some x → t' p = some x) (hown : ∀ x, t' old = some x → x.owner = id) :
    (∀ p x, x.owner ≠ id → t p = some x → t' p = some x) ↔ ∀ x, t old = some x → x.owner = id := by
  constructor
  · intro h x hx
    by_contra hne
    exact hne (hown x (h old x hne hx))
  · intro h p x hne hx
    by_cases hp : p = old
    · exact absurd (h x (hp ▸ hx)) hne
    · exact hkeep p x hp hx

theorem movedHolders_keepsOthers_iff (h : s.ports.Agrees) {old wanted : UInt16} (hne : wanted ≠ old)
    (hf : s.ports.Free refused wanted) :
    (∀ p x, x.owner ≠ id → s.ports.table.holder? p = some x → movedHolders s.ports id old wanted p = some x) ↔
      ∀ x, s.ports.table.holder? old = some x → x.owner = id := by
  refine keepsOthers_iff (fun p x hp hx => ?_) fun x hx => ?_
  · have hw : p ≠ wanted := by
      rintro rfl
      rw [h.unrecorded hf.1 hf.2.1] at hx
      cases hx
    rw [movedHolders, Function.update_of_ne hw, Function.update_of_ne hp, hx]
  · rw [movedHolders, Function.update_of_ne hne.symm, Function.update_self] at hx
    cases hx

theorem failedHolders_keepsOthers_iff (h : s.ports.Agrees) {old wanted : UInt16} (hne : wanted ≠ old) :
    (∀ p x, x.owner ≠ id → s.ports.table.holder? p = some x →
      failedHolders s.ports refused id old wanted p = some x) ↔
      ∀ x, s.ports.table.holder? old = some x → x.owner = id := by
  unfold failedHolders
  split_ifs with hf
  · exact movedHolders_keepsOthers_iff h hne hf.1
  · refine keepsOthers_iff (fun p x hp hx => ?_) fun x hx => ?_
    · rw [stayedHolders, Function.update_of_ne hp, hx]
    · rw [stayedHolders, Function.update_self] at hx
      split_ifs at hx
      cases hx
      rfl

theorem Updates.keepsOthers_iff {move : Option (UInt16 × UInt16)} {r : Except NodeError Node × Roster}
    (h : s.Sound) (hu : Updates s refused id move r) :
    s.ports.KeepsOthers r.2.ports id ↔ ∀ old wanted, move = some (old, wanted) →
      ∀ x, s.ports.table.Records old x → x.owner = id := by
  simp only [h.ports.sound.records_iff]
  cases hu with
  | rejected e s' nodes ports =>
    rw [ports]
    simp [Ports.KeepsOthers]
  | rewritten n s' row get port id_eq nodes ports =>
    rw [ports]
    simp [Ports.KeepsOthers]
  | failed e s' row old wanted get port ne nodes agrees range table =>
    rw [h.ports.keepsOthers_iff agrees range, table, failedHolders_keepsOthers_iff h.ports ne]
    simp
  | moved n s' row old get port ne free id_eq nodes agrees range table =>
    rw [h.ports.keepsOthers_iff agrees range, table, movedHolders_keepsOthers_iff h.ports ne free]
    simp

theorem delete_keepsOthers (h : s.Sound) (id : Int) (now : Instant) :
    s.ports.KeepsOthers (s.delete id now).2.ports id := by
  rcases delete_cases h.ports id now with ⟨e, heq⟩ | ⟨ports, s', heq, -, hagrees, hrange, htable⟩
  · rw [heq]
    exact fun p x _ => ⟨fun hx => hx, fun hx => hx⟩
  · rw [heq, h.ports.keepsOthers_iff hagrees hrange]
    intro p x hne hx
    -- A port that is recorded as another's is not held by this owner.
    have hother : p ∉ s.ports.ofOwner id := by
      rw [h.ports.ascending.mem_ofOwner]
      rintro ⟨y, hy, hid⟩
      have hyx := (h.ports.recorded_of_held hy).symm.trans hx
      exact hne (Option.some.inj hyx ▸ hid)
    rw [htable, if_neg hother, hx]

/-- **When a change of a node leaves the ports of all others alone.** To remove a node always does. To
change one does if it asks for no other port, or if the port in the row of the node is recorded as held
by no one else; otherwise that other owner loses the port. -/
theorem change_keepsOthers_iff (settings : EngineSettings) (range : PortSettings)
    (calls : List (Instant × RosterCall)) (id : Int) (now : Instant) :
    let s := (empty settings range).run calls
    s.ports.KeepsOthers (s.delete id now).2.ports id ∧
    ∀ refused c, s.ports.KeepsOthers (s.update refused id c now).2.ports id ↔
      ∀ old wanted, s.move? id c now = some (old, wanted) →
        ∀ x, s.ports.table.Records old x → x.owner = id := by
  have h := (Sound.empty settings range).run calls
  exact ⟨delete_keepsOthers h id now, fun refused c =>
    (update_updates h.ports refused id c now).keepsOthers_iff h⟩

/-- A node loses its port, another gets it, and loses it to the first, which moves. -/
theorem update_robs_other :
    ¬∀ (settings : EngineSettings) (range : PortSettings) (calls : List (Instant × RosterCall))
      (refused : UInt16 → Bool) (id : Int) (c : NodeChange) (now : Instant),
      let s := (empty settings range).run calls
      s.ports.KeepsOthers (s.update refused id c now).2.ports id := by
  intro h
  have hkeep := h {} sampleRange
    [(⟨0⟩, .create (fun _ => false) (sampleRequest "a")), (⟨0⟩, .update (· == 10000) 1 { port := some 20000 }),
      (⟨0⟩, .create (fun _ => false) (sampleRequest "b"))]
    (fun _ => false) 1 { port := some 10001 } ⟨0⟩
  exact absurd ((hkeep 10000 (.node 2) (by decide)).1 (by decide +kernel)) (by decide +kernel)

end Roster

end ProxyFleet

import ProxyFleet.Proofs.Ports.Agreement

/-!
# Calls on many ports at once

Giving back all ports of an owner, holding for the system what other programs have bound, and
starting anew over the table. Each keeps `Ports.Agrees`, and its effect on the two maps is stated
port by port.

* `table_holder?_releaseOwner`, `Agrees.releaseOwner` : the ports of an owner are given back, no others;
* `Ports.takenAll` : the ports after many were reserved and recorded;
* `Ports.Foreign`, `Ports.scanned`, `scan_eq_scanned`, `Agrees.scan_eq` : exactly the foreign ports go to
  the system;
* `Ports.restore_eq`, `Ports.reopen_eq` : what is held is then what the table records in the range.
-/

namespace ProxyFleet.Ports

set_option autoImplicit false

/-! ## The ports of an owner -/

theorem range_foldl_release (ps : List UInt16) (s : Ports) (now : Instant) :
    (ps.foldl (fun s p => (s.release p now).2) s).range = s.range := by
  induction ps generalizing s with
  | nil => rfl
  | cons p ps ih => exact ih _

/-- A map in which giving a port back leaves that port to nobody, after many were given back. -/
theorem foldl_release_apply {f : Ports → UInt16 → Option Holder} {now : Instant}
    (hf : ∀ s p, f (s.release p now).2 = Function.update (f s) p none) (ps : List UInt16) (s : Ports)
    (q : UInt16) :
    f (ps.foldl (fun s p => (s.release p now).2) s) q = if q ∈ ps then none else f s q := by
  induction ps generalizing s with
  | nil => simp
  | cons p ps ih =>
    rw [List.foldl_cons, ih, hf, Function.update_apply]
    by_cases hp : q = p
    · simp [hp]
    · simp [hp]

@[simp] theorem range_releaseOwner (s : Ports) (owner : Int) (now : Instant) :
    (s.releaseOwner owner now).2.range = s.range :=
  range_foldl_release _ s now

theorem table_holder?_releaseOwner (s : Ports) (owner : Int) (now : Instant) (p : UInt16) :
    (s.releaseOwner owner now).2.table.holder? p =
      if p ∈ s.ofOwner owner then none else s.table.holder? p :=
  foldl_release_apply (f := fun s => s.table.holder?) (fun s p => table_holder?_release s p now) _ s p

theorem Agrees.foldl_release {s : Ports} (h : s.Agrees) (ps : List UInt16) (now : Instant) :
    (ps.foldl (fun s p => (s.release p now).2) s).Agrees := by
  induction ps generalizing s with
  | nil => exact h
  | cons p ps ih => exact ih (h.release p now)

theorem Agrees.releaseOwner {s : Ports} (h : s.Agrees) (owner : Int) (now : Instant) :
    (s.releaseOwner owner now).2.Agrees :=
  h.foldl_release _ now

/-! ## What other programs have bound -/

/-- A port of the range that nobody holds although it is refused. -/
def Foreign (s : Ports) (refused : UInt16 → Bool) (p : UInt16) : Prop :=
  s.range.contains p = true ∧ s.holder? p = none ∧ refused p = true

instance (s : Ports) (refused : UInt16 → Bool) (p : UInt16) : Decidable (s.Foreign refused p) :=
  inferInstanceAs (Decidable (_ ∧ _))

/-- The allocation of a port to the system. -/
def systemAllocation (now : Instant) (port : UInt16) : PortAllocation :=
  { port, owner := systemOwner, purpose := .system, allocatedAt := now }

theorem mem_foreign {s : Ports} {refused : UInt16 → Bool} {p : UInt16} :
    p ∈ s.foreign refused ↔ s.Foreign refused p := by
  rw [foreign, List.mem_filter, PortSettings.mem_ports, Foreign, isHeld_eq, Bool.and_eq_true,
    Bool.not_eq_true', Option.isSome_eq_false_iff, Option.isNone_iff_eq_none]

theorem pairwise_foreign (s : Ports) (refused : UInt16 → Bool) (now : Instant) :
    ((s.foreign refused).map (systemAllocation now)).Pairwise (·.port ≠ ·.port) := by
  rw [List.pairwise_map]
  exact (PortSettings.nodup_ports s.range).filter _

theorem unheld_foreign {s : Ports} {refused : UInt16 → Bool}
    (hn : ∀ p, s.Foreign refused p → s.table.isHeld p = false) (now : Instant) :
    ∀ a ∈ (s.foreign refused).map (systemAllocation now), s.table.isHeld a.port = false :=
  List.forall_mem_map.2 fun p hp => hn p (mem_foreign.1 hp)

theorem foldl_hold (s : Ports) (as : List PortAllocation) :
    as.foldl hold s = { s with held := as.foldl (fun held a => insertAllocation a held) s.held } := by
  induction as generalizing s with
  | nil => rfl
  | cons a as ih => exact ih (s.hold a)

/-- Recording ports that have no row yet, each once, succeeds for all of them. -/
theorem foldl_commit {s : Ports} {as : List PortAllocation} (hd : as.Pairwise (·.port ≠ ·.port))
    (hn : ∀ a ∈ as, s.table.isHeld a.port = false) (n : Nat) :
    as.foldl (fun (x : Nat × Ports) a =>
        match x.2.commit a with
        | (.ok _, s) => (x.1 + 1, s)
        | (.error _, s) => (x.1, s)) (n, s) = (n + as.length, { s with table := s.table.insertAll as }) := by
  induction as generalizing s n with
  | nil => rfl
  | cons a as ih =>
    obtain ⟨ha, hd⟩ := List.pairwise_cons.1 hd
    obtain ⟨hheld, hn⟩ := List.forall_mem_cons.1 hn
    have hcommit : s.commit a =
        (.ok a.port, { s with table := s.table.insert (PortRow.ofAllocation a) }) := by
      rw [commit, PortTable.record_eq_ok hheld]
    have hrest := ih (s := { s with table := s.table.insert (PortRow.ofAllocation a) }) hd
      (fun b hb => (PortTable.isHeld_insert_of_ne (ha b hb)).trans (hn b hb)) (n + 1)
    rw [List.foldl_cons, hcommit]
    refine hrest.trans ?_
    rw [List.length_cons, Nat.add_assoc, Nat.add_comm 1]
    rfl

/-- The ports after each of these allocations was reserved and recorded. -/
def takenAll (s : Ports) (as : List PortAllocation) : Ports :=
  { s with
    held := as.foldl (fun held a => insertAllocation a held) s.held
    table := s.table.insertAll as }

theorem find?_takenAll (s : Ports) {as : List PortAllocation} (hd : as.Pairwise (·.port ≠ ·.port))
    (p : UInt16) :
    (s.takenAll as).find? p = (as.find? (·.port == p)).or (s.find? p) :=
  find?_foldl_insert hd s.held p

/-- The ports after the foreign ones have gone to the system. -/
def scanned (s : Ports) (refused : UInt16 → Bool) (now : Instant) : Ports :=
  s.takenAll ((s.foreign refused).map (systemAllocation now))

/-- First all foreign ports are reserved, and only then are they recorded. -/
theorem scan_eq_scanned {s : Ports} {refused : UInt16 → Bool}
    (hn : ∀ p, s.Foreign refused p → s.table.isHeld p = false) (now : Instant) :
    s.scan refused now = ((s.foreign refused).length, s.scanned refused now) := by
  have hheld := foldl_hold s ((s.foreign refused).map (systemAllocation now))
  have hfold := foldl_commit (s := ((s.foreign refused).map (systemAllocation now)).foldl hold s)
    (pairwise_foreign s refused now) (by rw [hheld]; exact unheld_foreign hn now) 0
  refine hfold.trans ?_
  rw [hheld, List.length_map, Nat.zero_add]
  rfl

/-- Among the allocations of the foreign ports, exactly these go to the system. -/
theorem find?_foreign (s : Ports) (refused : UInt16 → Bool) (now : Instant) (p : UInt16) :
    (((s.foreign refused).map (systemAllocation now)).find? (·.port == p)).map (·.holder) =
      if s.Foreign refused p then some ⟨systemOwner, .system⟩ else none := by
  simp only [← mem_foreign]
  induction s.foreign refused with
  | nil => rfl
  | cons q ps ih =>
    rw [List.map_cons, List.find?_cons]
    by_cases hq : q = p
    · simp [systemAllocation, PortAllocation.holder, hq]
    · have hne : (systemAllocation now q).port ≠ p := hq
      simp only [beq_eq_false_iff_ne.2 hne, ih, List.mem_cons, Ne.symm hq, false_or]

/-- What the foreign ports' allocations add to a map. -/
theorem find?_foreign_or (s : Ports) (refused : UInt16 → Bool) (now : Instant) (p : UInt16)
    (other : Option Holder) :
    ((((s.foreign refused).map (systemAllocation now)).find? (·.port == p)).map (·.holder)).or other =
      if s.Foreign refused p then some ⟨systemOwner, .system⟩ else other := by
  rw [find?_foreign]
  split_ifs
  · rfl
  · rfl

theorem holder?_scanned (s : Ports) (refused : UInt16 → Bool) (now : Instant) (p : UInt16) :
    (s.scanned refused now).holder? p =
      if s.Foreign refused p then some ⟨systemOwner, .system⟩ else s.holder? p := by
  rw [holder?, scanned, find?_takenAll s (pairwise_foreign s refused now), Option.map_or]
  exact find?_foreign_or s refused now p (s.holder? p)

/-- Exactly the foreign ports go to the system, in both copies, and they are counted. -/
theorem Agrees.scan_eq {s : Ports} (h : s.Agrees) (refused : UInt16 → Bool) (now : Instant) :
    ∃ s', s.scan refused now = ((s.foreign refused).length, s') ∧ s'.Agrees ∧ s'.range = s.range ∧
      (∀ p, s'.holder? p = if s.Foreign refused p then some ⟨systemOwner, .system⟩ else s.holder? p) ∧
      ∀ p, s'.table.holder? p =
        if s.Foreign refused p then some ⟨systemOwner, .system⟩ else s.table.holder? p := by
  have hdiff := pairwise_foreign s refused now
  have hn : ∀ p, s.Foreign refused p → s.table.isHeld p = false := fun p hp => h.isHeld_table hp.1 hp.2.1
  have hmem := s.holder?_scanned refused now
  have hrows : ∀ p, (s.table.insertAll ((s.foreign refused).map (systemAllocation now))).holder? p =
      if s.Foreign refused p then some ⟨systemOwner, .system⟩ else s.table.holder? p := by
    intro p
    rw [PortTable.holder?_insertAll hdiff (unheld_foreign hn now)]
    exact find?_foreign_or s refused now p (s.table.holder? p)
  refine ⟨_, scan_eq_scanned hn now, ⟨h.ascending.foldl_insert _,
    h.sound.insertAll hdiff (unheld_foreign hn now), fun p => ?_⟩, rfl, hmem, hrows⟩
  rw [hmem]
  show _ = if s.range.contains p = true then (s.table.insertAll _).holder? p else none
  rw [hrows]
  by_cases hf : s.Foreign refused p
  · simp [hf, hf.1]
  · simp [hf, h.agree p]

/-! ## Starting anew -/

/-- What is restored is what the table records in the range, and nothing else changes. -/
theorem restore_eq {s : Ports} (h : s.table.Sound) (now : Instant) :
    ∃ held, s.restore now = (.ok held.length, { s with held }) ∧ Agrees { s with held } := by
  obtain ⟨as, hok, hdiff, has⟩ := h.active_eq now
  have hd := hdiff.filter fun a => s.range.contains a.port
  refine ⟨_, by rw [restore, hok], Ascending.nil.foldl_insert _, h, fun p => ?_⟩
  rw [holder?, find?, find?_foldl_insert hd, List.find?_nil, Option.or_none, ← has]
  split_ifs with hc
  · congr 1
    rw [List.find?_filter]
    congr 1
    funext a
    by_cases ha : a.port = p
    · simp [ha, hc]
    · simp [ha]
  · rw [Option.map_eq_none_iff, List.find?_eq_none]
    intro a ha
    have hca : s.range.contains a.port = true := (List.mem_filter.1 ha).2
    intro hap
    rw [beq_iff_eq] at hap
    exact hc (hap ▸ hca)

/-- The same over another range. -/
theorem reopen_eq {s : Ports} (h : s.table.Sound) (range : PortSettings) (now : Instant) :
    ∃ held, s.reopen range now = (.ok held.length, { range, held, table := s.table }) ∧
      Agrees { range, held, table := s.table } :=
  restore_eq (s := { range, table := s.table }) h now

end ProxyFleet.Ports

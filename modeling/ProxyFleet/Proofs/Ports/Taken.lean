import ProxyFleet.Proofs.Ports.Agreement

/-!
# A port that was taken, passed on or given back

A port that was free and was taken can go to another owner, or back. These are the exact effects, on
the list of held ports and on the rows that say a port is held.

* `Ports.assign_taken` : a port that is passed on is as if its new owner had taken it;
* `Ports.held_release_taken`, `Ports.active_release_taken` : a port that is given back leaves
  nothing behind;
* `Ports.Chosen` : the port that is taken, the one that is asked for or else the least that is free.
-/

namespace ProxyFleet

set_option autoImplicit false

/-! ## Held ports -/

theorem insertAllocation_insertAllocation {a b : PortAllocation} (h : a.port = b.port) (l : List PortAllocation) :
    insertAllocation b (insertAllocation a l) = insertAllocation b l := by
  induction l with
  | nil => simp [insertAllocation, h]
  | cons c rest ih =>
    rw [insertAllocation, insertAllocation, h]
    split_ifs with hbc hcb
    · simp [insertAllocation, h]
    · rw [insertAllocation, if_neg hbc, if_pos hcb, ih]
    · simp [insertAllocation, h]

theorem filter_insertAllocation {a : PortAllocation} {l : List PortAllocation}
    (h : l.find? (·.port == a.port) = none) : (insertAllocation a l).filter (·.port != a.port) = l := by
  have hne : ∀ b ∈ l, b.port ≠ a.port := by
    simpa using h
  have hall : ∀ m : List PortAllocation, (∀ b ∈ m, b.port ≠ a.port) → m.filter (·.port != a.port) = m :=
    fun m hm => List.filter_eq_self.2 fun b hb => by simpa using hm b hb
  clear h
  induction l with
  | nil => simp [insertAllocation]
  | cons b rest ih =>
    obtain ⟨hb, hrest⟩ := List.forall_mem_cons.1 hne
    unfold insertAllocation
    split_ifs with hab hba
    · rw [List.filter_cons_of_neg (by simp), hall _ hne]
    · rw [List.filter_cons_of_pos (by simpa using hb), ih hrest]
    · exact absurd (UInt16.le_antisymm (UInt16.not_lt.1 hab) (UInt16.not_lt.1 hba)) hb

/-! ## Recorded ports -/

namespace PortTable

variable {t : PortTable} {a : PortAllocation}

theorem not_holds_of_isHeld (h : t.isHeld a.port = false) {e : Int × PortRow} (he : e ∈ t.rows) :
    e.2.holds a.port = false := by
  by_contra hc
  have : t.isHeld a.port = true := List.any_eq_true.2 ⟨e, he, by simpa using hc⟩
  exact Bool.false_ne_true (h.symm.trans this)

/-- A change of the rows of a port changes just the row of it, if that is new. -/
theorem rows_modify_insert (h : t.isHeld a.port = false) (f : PortRow → PortRow) :
    ((t.insert (PortRow.ofAllocation a)).modify (fun _ r => r.holds a.port) f).rows =
      t.rows ++ [(t.nextId, f (PortRow.ofAllocation a))] := by
  have hold : (t.rows.map fun e => if e.2.holds a.port then (e.1, f e.2) else (e.1, e.2)) = t.rows := by
    refine (List.map_congr_left fun e he => ?_).trans (List.map_id _)
    rw [not_holds_of_isHeld h he]
    rfl
  rw [Table.rows_modify, Table.rows_insert, List.map_append, hold]
  simp [PortRow.holds_ofAllocation]

theorem reassign_insert (h : t.isHeld a.port = false) (owner : Int) :
    reassign (t.insert (PortRow.ofAllocation a)) a.port owner =
      t.insert (PortRow.ofAllocation { a with owner }) := by
  have hrows : (reassign (t.insert (PortRow.ofAllocation a)) a.port owner).rows =
      (t.insert (PortRow.ofAllocation { a with owner })).rows := rows_modify_insert h _
  exact congrArg (Table.mk · (t.nextId + 1)) hrows

/-- A port that was free is recorded for nobody once it is given back. -/
theorem active_release_insert (h : t.isHeld a.port = false) (now : Instant) :
    (release (t.insert (PortRow.ofAllocation a)) a.port now).select (·.isActive) = t.select (·.isActive) := by
  have hlast : PortRow.isActive { PortRow.ofAllocation a with
      status := PortStatus.released.name, releasedAt := some now.stamp } = false :=
    PortRow.isActive_of_released rfl
  rw [Table.select, release, rows_modify_insert h, List.filter_append]
  simp [hlast, Table.select]

end PortTable

/-! ## Both -/

namespace Ports

variable {s : Ports} {refused : UInt16 → Bool} {a : PortAllocation}

theorem find?_taken (s : Ports) (a : PortAllocation) : (s.taken a).find? a.port = some a := by
  show (insertAllocation a s.held).find? (·.port == a.port) = some a
  rw [find?_insertAllocation, if_pos rfl]

/-- A port that was free, and that was taken and passed on, is as if its new owner had taken it. -/
theorem assign_taken (h : s.Agrees) (hf : s.Free refused a.port) (owner : Int) :
    (s.taken a).assign a.port owner = (.ok (), s.taken { a with owner }) := by
  have hheld : insertAllocation { a with owner } (insertAllocation a s.held) =
      insertAllocation { a with owner } s.held :=
    insertAllocation_insertAllocation (a := a) (b := { a with owner }) rfl s.held
  have htable := PortTable.reassign_insert (h.isHeld_table hf.1 hf.2.1) owner
  rw [assign, find?_taken]
  simp only [hold, taken, hheld, htable]

/-- A port that was free, and that was taken and given back, is held for nobody. -/
theorem held_release_taken (hf : s.Free refused a.port) (now : Instant) :
    ((s.taken a).release a.port now).2.held = s.held := by
  have hnone : s.held.find? (·.port == a.port) = none := find?_eq_none_iff.2 hf.2.1
  exact filter_insertAllocation hnone

/-- A port that was free, and that was taken and given back, is recorded for nobody. -/
theorem active_release_taken (h : s.Agrees) (hf : s.Free refused a.port) (now : Instant) :
    ((s.taken a).release a.port now).2.table.select (·.isActive) = s.table.select (·.isActive) :=
  PortTable.active_release_insert (h.isHeld_table hf.1 hf.2.1) now

/-! ## Which port is taken -/

/-- The port is the one that is asked for, or else the least, among those that are free. -/
def Chosen (s : Ports) (refused : UInt16 → Bool) (asked : Option UInt16) (p : UInt16) : Prop :=
  s.Free refused p ∧
    match asked with
    | some q => p = q
    | none => ∀ q, s.Free refused q → p ≤ q

theorem Chosen.unique {asked : Option UInt16} {p q : UInt16} (hp : s.Chosen refused asked p)
    (hq : s.Chosen refused asked q) : p = q := by
  cases asked with
  | none => exact UInt16.le_antisymm (hp.2 q hq.1) (hq.2 p hp.1)
  | some asked => exact hp.2.trans hq.2.symm

theorem ascending_ports (r : PortSettings) : r.ports.Pairwise (· < ·) := by
  have hlast := r.last.toNat_lt
  rw [PortSettings.ports, List.pairwise_map]
  refine List.pairwise_lt_range.imp_of_mem fun {i j} hi hj hij => ?_
  rw [List.mem_range] at hi hj
  rw [UInt16.lt_iff_toNat_lt, UInt16.toNat_ofNat_of_lt' (by show r.first.toNat + i < 2 ^ 16; omega),
    UInt16.toNat_ofNat_of_lt' (by show r.first.toNat + j < 2 ^ 16; omega)]
  omega

theorem commit_eq_ok {p : UInt16} (h : (s.commit a).1 = .ok p) : a.port = p := by
  unfold commit at h
  cases hrecord : s.table.record a with
  | error e =>
    rw [hrecord] at h
    cases h
  | ok table =>
    rw [hrecord] at h
    exact Except.ok.inj h

/-- The first free port is the least one. -/
theorem allocate_least {p : UInt16} {owner : Int} {purpose : PortPurpose} {now : Instant}
    (h : (s.allocate refused owner purpose now).1 = .ok p) {q : UInt16} (hq : s.Free refused q) : p ≤ q := by
  unfold allocate reserve at h
  cases hfind : s.range.ports.find? fun p => !s.isHeld p && !refused p with
  | none =>
    rw [hfind] at h
    cases h
  | some first =>
    rw [hfind] at h
    obtain rfl : first = p := commit_eq_ok h
    -- What comes before the first free port is not free, and what comes after it is greater.
    obtain ⟨-, before, after, hports, hbefore⟩ := List.find?_eq_some_iff_append.1 hfind
    have hascending := ascending_ports s.range
    have hmem := PortSettings.mem_ports.2 hq.1
    rw [hports] at hascending hmem
    rcases List.mem_append.1 hmem with hmem | hmem
    · have := hbefore q hmem
      simp [isHeld_eq, hq.2.1, hq.2.2] at this
    · rcases List.mem_cons.1 hmem with rfl | hmem
      · exact UInt16.le_refl _
      · exact UInt16.le_of_lt ((List.pairwise_cons.1 (List.pairwise_append.1 hascending).2.1).1 q hmem)

end Ports

end ProxyFleet

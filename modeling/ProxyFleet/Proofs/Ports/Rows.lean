import Mathlib.Data.List.Perm.Basic
import ProxyFleet.Proofs.Ports.Held

/-!
# The rows of ports that are held, as a map

The rows that say a port is still held are read as a map, too: what follows states the effect of
each statement on `PortTable.holder?`.

* `PortTable.Records` : a row says that a port is held, by whom and for what;
* `PortTable.Sound` : every row is about a port and a purpose, and no port has two rows that say it
  is still held; each statement keeps this (`Sound.insert`, `Sound.release`, `Sound.reassign`,
  `Sound.cleanup`);
* `PortTable.holder?` : the holder that a port's row names (`Sound.records_iff`);
* `holder?_insert`, `holder?_release`, `holder?_reassign`, `holder?_cleanup` : each statement's effect;
* `PortTable.insertAll`, `isHeld_insertAll`, `holder?_insertAll` : many rows one after the other;
* `Sound.active_eq` : the list of held ports can be read, and it is that map.
-/

namespace ProxyFleet

set_option autoImplicit false

theorem PortPurpose.ofName?_name (p : PortPurpose) : ofName? p.name = some p := by
  cases p <;> decide

theorem PortPurpose.name_inj {p q : PortPurpose} (h : p.name = q.name) : p = q :=
  Option.some.inj ((ofName?_name p).symm.trans ((congrArg ofName? h).trans (ofName?_name q)))

/-! ## Single rows -/

theorem portColumn_toNat (p : UInt16) : portColumn p.toNat = .ok p := by
  have := p.toNat_lt
  rw [portColumn, if_pos ⟨by omega, by omega⟩, Int.toNat_natCast, UInt16.ofNat_toNat]

namespace PortRow

/-- The row is about a port, and a purpose for which ports are held. -/
structure Valid (r : PortRow) : Prop where
  port : ∃ p : UInt16, r.port = p.toNat
  purpose : ∃ p : PortPurpose, r.purpose = p.name

/-- The holder that a row names. -/
def holder? (r : PortRow) : Option Holder := (PortPurpose.ofName? r.purpose).map (⟨r.owner, ·⟩)

theorem holds_iff {r : PortRow} {p : UInt16} : r.holds p = true ↔ r.isActive = true ∧ r.port = p.toNat := by
  simp [holds]

theorem isActive_ofAllocation (a : PortAllocation) : (ofAllocation a).isActive = true := by
  simp [isActive, ofAllocation]

theorem isActive_of_released {r : PortRow} (h : r.status = PortStatus.released.name) :
    r.isActive = false := by
  rw [isActive, h]
  decide

theorem holds_ofAllocation (a : PortAllocation) (p : UInt16) :
    (ofAllocation a).holds p = (p == a.port) := by
  rw [Bool.eq_iff_iff, holds_iff, beq_iff_eq]
  constructor
  · rintro ⟨-, hp⟩
    have hnat : (a.port.toNat : Int) = p.toNat := hp
    exact UInt16.toNat_inj.1 (by omega)
  · rintro rfl
    exact ⟨isActive_ofAllocation a, rfl⟩

theorem holder?_ofAllocation (a : PortAllocation) : (ofAllocation a).holder? = some a.holder := by
  rw [holder?, ofAllocation, PortPurpose.ofName?_name]
  rfl

theorem valid_ofAllocation (a : PortAllocation) : (ofAllocation a).Valid :=
  ⟨⟨a.port, rfl⟩, ⟨a.purpose, rfl⟩⟩

theorem holder?_eq_some {r : PortRow} {h : Holder} (hv : r.Valid) :
    r.holder? = some h ↔ r.owner = h.owner ∧ r.purpose = h.purpose.name := by
  obtain ⟨p, hp⟩ := hv.purpose
  rw [holder?, hp, PortPurpose.ofName?_name, Option.map_some, Option.some.injEq]
  constructor
  · rintro rfl
    exact ⟨rfl, rfl⟩
  · rintro ⟨ho, hn⟩
    rw [ho, PortPurpose.name_inj hn]

/-- A row that says its port is still held reads as an allocation of that port to that holder. -/
theorem Valid.allocation_eq {r : PortRow} (hv : r.Valid) (ha : r.isActive = true) (now : Instant) :
    ∃ a, r.allocation now = .ok a ∧ r.port = a.port.toNat ∧ r.holder? = some a.holder := by
  obtain ⟨p, hp⟩ := hv.port
  obtain ⟨q, hq⟩ := hv.purpose
  have hs : r.status = PortStatus.allocated.name := by simpa [isActive] using ha
  have hport : portColumn r.port = .ok p := hp ▸ portColumn_toNat p
  have hstatus : PortStatus.ofName? PortStatus.allocated.name = some .allocated := by decide
  refine ⟨{ port := p, owner := r.owner, purpose := q, status := .allocated
            allocatedAt := timeColumn now r.allocatedAt, releasedAt := timeColumn? r.releasedAt }, ?_, hp, ?_⟩
  · rw [allocation, hport, hq, hs, PortPurpose.ofName?_name, hstatus]
    rfl
  · rw [holder?, hq, PortPurpose.ofName?_name]
    rfl

end PortRow

/-! ## The map -/

namespace PortTable

/-- A row says that the port is still held, by this holder. -/
def Records (t : PortTable) (port : UInt16) (h : Holder) : Prop :=
  ∃ e ∈ t.rows, e.2.isActive = true ∧ e.2.port = port.toNat ∧ e.2.owner = h.owner ∧
    e.2.purpose = h.purpose.name

/-- The holder that the first row of a port names, among the rows that say it is still held. -/
def holder? (t : PortTable) (port : UInt16) : Option Holder :=
  (t.rows.find? (·.2.holds port)).bind (·.2.holder?)

/-- Every row is about a port and a purpose, and no two rows say of one port that it is held. -/
structure Sound (t : PortTable) : Prop where
  valid : ∀ e ∈ t.rows, e.2.Valid
  unique : t.rows.Pairwise fun a b => a.2.isActive = true → b.2.isActive = true → a.2.port ≠ b.2.port

theorem isHeld_eq_find? (t : PortTable) (p : UInt16) :
    t.isHeld p = (t.rows.find? (·.2.holds p)).isSome := by
  rw [isHeld, Bool.eq_iff_iff, List.any_eq_true, List.find?_isSome]

namespace Sound

variable {t : PortTable}

theorem eq_of_holds (h : t.Sound) {p : UInt16} {e f : Int × PortRow} (he : e ∈ t.rows) (hf : f ∈ t.rows)
    (hep : e.2.holds p = true) (hfp : f.2.holds p = true) : e = f := by
  rw [PortRow.holds_iff] at hep hfp
  refine List.Pairwise.forall_of_forall_of_flip
    (R := fun a b => a.2.isActive = true → b.2.isActive = true → a.2.port = b.2.port → a = b)
    (fun _ _ _ _ _ => rfl) (h.unique.imp fun hab ha hb heq => absurd heq (hab ha hb))
    (h.unique.imp fun hab hb ha heq => absurd heq.symm (hab ha hb)) he hf hep.1 hfp.1 ?_
  rw [hep.2, hfp.2]

theorem find?_eq_some (h : t.Sound) {p : UInt16} {e : Int × PortRow} :
    t.rows.find? (·.2.holds p) = some e ↔ e ∈ t.rows ∧ e.2.holds p = true := by
  constructor
  · intro hf
    exact ⟨List.mem_of_find?_eq_some hf, List.find?_some (p := fun e : Int × PortRow => e.2.holds p) hf⟩
  · rintro ⟨he, hp⟩
    obtain ⟨f, hf⟩ := Option.isSome_iff_exists.1
      (List.find?_isSome (p := fun e : Int × PortRow => e.2.holds p) |>.2 ⟨e, he, hp⟩)
    have hfp := List.find?_some (p := fun e : Int × PortRow => e.2.holds p) hf
    rw [hf, h.eq_of_holds (List.mem_of_find?_eq_some hf) he hfp hp]

theorem records_iff (h : t.Sound) {p : UInt16} {x : Holder} : t.Records p x ↔ t.holder? p = some x := by
  simp only [Records, holder?, Option.bind_eq_some_iff, h.find?_eq_some, PortRow.holds_iff]
  constructor
  · rintro ⟨e, he, ha, hp, hx⟩
    exact ⟨e, ⟨he, ha, hp⟩, (PortRow.holder?_eq_some (h.valid e he)).2 hx⟩
  · rintro ⟨e, ⟨he, ha, hp⟩, hx⟩
    exact ⟨e, he, ha, hp, (PortRow.holder?_eq_some (h.valid e he)).1 hx⟩

theorem isHeld_eq (h : t.Sound) (p : UInt16) : t.isHeld p = (t.holder? p).isSome := by
  rw [isHeld_eq_find?, holder?]
  cases hf : t.rows.find? (·.2.holds p) with
  | none => rfl
  | some e =>
    obtain ⟨q, hq⟩ := (h.valid e (List.mem_of_find?_eq_some hf)).purpose
    simp [PortRow.holder?, hq, PortPurpose.ofName?_name]

/-- A port has at most one row that says it is still held. -/
theorem count_le_one (h : t.Sound) (port : Int) :
    t.count (fun r => r.isActive && r.port == port) ≤ 1 := by
  have hp : (t.select fun r => r.isActive && r.port == port).Pairwise fun _ _ => False := by
    have hf := h.unique.filter fun e => e.2.isActive && e.2.port == port
    refine hf.imp_of_mem fun {a b} ha hb hab => ?_
    simp only [Table.select, List.mem_filter, Bool.and_eq_true, beq_iff_eq] at ha hb
    exact hab ha.2.1 hb.2.1 (ha.2.2.trans hb.2.2.symm)
  rw [Table.count]
  rcases ht : t.select fun r => r.isActive && r.port == port with _ | ⟨a, _ | ⟨b, rest⟩⟩
  · simp
  · simp
  · rw [ht] at hp
    exact ((List.pairwise_cons.1 hp).1 b (by simp)).elim

end Sound

/-! ## Statements -/

theorem record_eq_ok {t : PortTable} {a : PortAllocation} (h : t.isHeld a.port = false) :
    t.record a = .ok (t.insert (PortRow.ofAllocation a)) := by
  rw [record, h]
  rfl

theorem holder?_insert {t : PortTable} {a : PortAllocation} (h : t.isHeld a.port = false) :
    holder? (t.insert (PortRow.ofAllocation a)) = Function.update t.holder? a.port (some a.holder) := by
  funext p
  rw [holder?, Table.rows_insert, List.find?_append, Function.update_apply]
  split_ifs with hp
  · subst hp
    have hnone : t.rows.find? (·.2.holds a.port) = none := by
      rwa [isHeld_eq_find?, Option.isSome_eq_false_iff, Option.isNone_iff_eq_none] at h
    rw [hnone, Option.none_or]
    simp [PortRow.holds_ofAllocation, PortRow.holder?_ofAllocation]
  · simp [PortRow.holds_ofAllocation, hp, holder?]

theorem isHeld_insert (t : PortTable) (a : PortAllocation) (p : UInt16) :
    isHeld (t.insert (PortRow.ofAllocation a)) p = (t.isHeld p || p == a.port) := by
  simp [isHeld, PortRow.holds_ofAllocation]

/-- The table with a row for each of these allocations, after the rows that it has. -/
def insertAll (t : PortTable) (as : List PortAllocation) : PortTable :=
  as.foldl (fun t a => t.insert (PortRow.ofAllocation a)) t

/-- A port other than that of a new row is held as it was. -/
theorem isHeld_insert_of_ne {t : PortTable} {a : PortAllocation} {p : UInt16} (h : a.port ≠ p) :
    isHeld (t.insert (PortRow.ofAllocation a)) p = t.isHeld p := by
  rw [isHeld_insert, beq_eq_false_iff_ne.2 h.symm, Bool.or_false]

theorem isHeld_insertAll (t : PortTable) (as : List PortAllocation) (p : UInt16) :
    (t.insertAll as).isHeld p = (t.isHeld p || as.any (·.port == p)) := by
  induction as generalizing t with
  | nil => simp [insertAll]
  | cons a as ih =>
    refine (ih (t.insert (PortRow.ofAllocation a))).trans ?_
    rw [isHeld_insert, List.any_cons, Bool.or_assoc, Bool.beq_comm]

theorem holder?_insertAll {t : PortTable} {as : List PortAllocation} (hd : as.Pairwise (·.port ≠ ·.port))
    (hn : ∀ a ∈ as, t.isHeld a.port = false) (p : UInt16) :
    (t.insertAll as).holder? p = ((as.find? (·.port == p)).map (·.holder)).or (t.holder? p) := by
  induction as generalizing t with
  | nil => rfl
  | cons a as ih =>
    obtain ⟨ha, hd⟩ := List.pairwise_cons.1 hd
    obtain ⟨hheld, hn⟩ := List.forall_mem_cons.1 hn
    have hrest := ih (t := t.insert (PortRow.ofAllocation a)) hd fun b hb =>
      (isHeld_insert_of_ne (ha b hb)).trans (hn b hb)
    refine hrest.trans ?_
    rw [holder?_insert hheld, Function.update_apply]
    by_cases hp : p = a.port
    · subst hp
      have hnone : as.find? (·.port == a.port) = none := by
        rw [List.find?_eq_none]
        intro b hb
        simpa using Ne.symm (ha b hb)
      simp [hnone]
    · simp [hp, Ne.symm hp]

/-- Changing the rows that say of a port that it is held leaves every other port's as they are. -/
theorem find?_modify_of_ne {t : PortTable} {p q : UInt16} (f : PortRow → PortRow)
    (hf : ∀ r : PortRow, r.holds p = true → (f r).port = r.port) (h : q ≠ p) :
    (t.modify (fun _ r => r.holds p) f).rows.find? (·.2.holds q) = t.rows.find? (·.2.holds q) := by
  rw [Table.rows_modify]
  induction t.rows with
  | nil => rfl
  | cons e rest ih =>
    rw [List.map_cons, List.find?_cons, List.find?_cons, ih]
    by_cases he : e.2.holds p = true
    · have hne : e.2.port ≠ (q.toNat : Int) := by
        rw [(PortRow.holds_iff.1 he).2]
        exact fun heq => h (UInt16.toNat_inj.1 (by omega))
      have hold : e.2.holds q = false := by simp [PortRow.holds, hne]
      have hnew : (f e.2).holds q = false := by simp [PortRow.holds, hf e.2 he, hne]
      rw [if_pos he, hold, hnew]
    · rw [if_neg he]

theorem holder?_release (t : PortTable) (p : UInt16) (now : Instant) :
    holder? (t.release p now) = Function.update t.holder? p none := by
  funext q
  rw [Function.update_apply]
  split_ifs with hq
  · subst hq
    have hnone : (t.release q now).rows.find? (·.2.holds q) = none := by
      rw [List.find?_eq_none, release, Table.rows_modify]
      intro e he
      obtain ⟨e', -, rfl⟩ := List.mem_map.1 he
      by_cases hq : e'.2.holds q = true
      · rw [if_pos hq, PortRow.holds_iff]
        rintro ⟨ha, -⟩
        exact Bool.false_ne_true ((PortRow.isActive_of_released rfl).symm.trans ha)
      · rw [if_neg hq]
        exact hq
    rw [holder?, hnone]
    rfl
  · rw [holder?, holder?, release, find?_modify_of_ne _ ?_ hq]
    exact fun _ _ => rfl

theorem holder?_reassign (t : PortTable) (p : UInt16) (owner : Int) :
    holder? (t.reassign p owner) =
      Function.update t.holder? p ((t.holder? p).map fun x => ⟨owner, x.purpose⟩) := by
  funext q
  rw [Function.update_apply]
  split_ifs with hq
  · subst hq
    rw [holder?, holder?, reassign, Table.rows_modify]
    induction t.rows with
    | nil => rfl
    | cons e rest ih =>
      rw [List.map_cons, List.find?_cons, List.find?_cons]
      by_cases he : e.2.holds q = true
      · have hf : PortRow.holds { e.2 with owner } q = true := he
        simp [he, hf, PortRow.holder?, Function.comp_def]
      · simpa [he] using ih
  · rw [holder?, holder?, reassign, find?_modify_of_ne _ ?_ hq]
    exact fun _ _ => rfl

/-- A row that is stale says of no port that it is held. -/
theorem isActive_of_isStale {before : Instant} {r : PortRow} (h : isStale before r = true) :
    r.isActive = false := by
  simp only [isStale, Bool.and_eq_true, beq_iff_eq] at h
  exact PortRow.isActive_of_released h.1

theorem holder?_cleanup (t : PortTable) (before : Instant) : holder? (t.cleanup before) = t.holder? := by
  funext p
  rw [holder?, holder?, cleanup, Table.rows_erase, List.find?_filter]
  congr 2
  funext e
  by_cases h : isStale before e.2 = true
  · simp [h, PortRow.holds, isActive_of_isStale h]
  · simp [h]

namespace Sound

variable {t : PortTable}

theorem empty : Sound {} := ⟨by simp, List.Pairwise.nil⟩

theorem insert (h : t.Sound) {a : PortAllocation} (ha : t.isHeld a.port = false) :
    Sound (t.insert (PortRow.ofAllocation a)) where
  valid e he := by
    rcases List.mem_append.1 he with he | he
    · exact h.valid e he
    · rw [List.mem_singleton.1 he]
      exact PortRow.valid_ofAllocation a
  unique := by
    refine List.pairwise_append.2 ⟨h.unique, by simp, fun e he f hf hea _ heq => ?_⟩
    rw [List.mem_singleton.1 hf] at heq
    have hheld : t.isHeld a.port = true :=
      List.any_eq_true.2 ⟨e, he, PortRow.holds_iff.2 ⟨hea, heq⟩⟩
    rw [ha] at hheld
    exact Bool.false_ne_true hheld

theorem insertAll (h : t.Sound) {as : List PortAllocation} (hd : as.Pairwise (·.port ≠ ·.port))
    (hn : ∀ a ∈ as, t.isHeld a.port = false) : Sound (t.insertAll as) := by
  induction as generalizing t with
  | nil => exact h
  | cons a as ih =>
    obtain ⟨ha, hd⟩ := List.pairwise_cons.1 hd
    obtain ⟨hheld, hn⟩ := List.forall_mem_cons.1 hn
    exact ih (h.insert hheld) hd fun b hb => (isHeld_insert_of_ne (ha b hb)).trans (hn b hb)

/-- A change of rows that moves none to another port or purpose, and makes none say again that its
port is held. -/
theorem modify (h : t.Sound) (p : Int → PortRow → Bool) (f : PortRow → PortRow)
    (hport : ∀ r, (f r).port = r.port) (hpurpose : ∀ r, (f r).purpose = r.purpose)
    (hactive : ∀ r : PortRow, (f r).isActive = true → r.isActive = true) : Sound (t.modify p f) := by
  refine ⟨fun e he => ?_, ?_⟩
  · obtain ⟨e', he', rfl⟩ := List.mem_map.1 he
    have hv := h.valid e' he'
    by_cases hp : p e'.1 e'.2 = true
    · simp only [hp, if_true]
      exact ⟨hport e'.2 ▸ hv.port, hpurpose e'.2 ▸ hv.purpose⟩
    · simpa [hp] using hv
  · rw [Table.rows_modify, List.pairwise_map]
    refine h.unique.imp fun {a b} hab ha hb => ?_
    have hrow : ∀ e : Int × PortRow, (if p e.1 e.2 then (e.1, f e.2) else (e.1, e.2)).2.port = e.2.port := by
      intro e
      split
      · exact hport e.2
      · rfl
    have hact : ∀ e : Int × PortRow,
        (if p e.1 e.2 then (e.1, f e.2) else (e.1, e.2)).2.isActive = true → e.2.isActive = true := by
      intro e
      split
      · exact hactive e.2
      · exact id
    rw [hrow, hrow]
    exact hab (hact a ha) (hact b hb)

theorem release (h : t.Sound) (p : UInt16) (now : Instant) : Sound (t.release p now) :=
  h.modify _ _ (fun _ => rfl) (fun _ => rfl) fun _ hr =>
    absurd ((PortRow.isActive_of_released rfl).symm.trans hr) Bool.false_ne_true

theorem reassign (h : t.Sound) (p : UInt16) (owner : Int) : Sound (t.reassign p owner) :=
  h.modify _ _ (fun _ => rfl) (fun _ => rfl) fun _ hr => hr

theorem cleanup (h : t.Sound) (before : Instant) : Sound (t.cleanup before) :=
  ⟨fun e he => h.valid e (List.mem_filter.1 he).1, h.unique.filter _⟩

/-! ## Reading -/

/-- The rows that say a port is still held are about different ports. -/
theorem pairwise_active (h : t.Sound) :
    ((t.select (·.isActive)).map (·.2)).Pairwise (·.port ≠ ·.port) := by
  rw [List.pairwise_map]
  refine (h.unique.filter _).imp_of_mem fun ha hb hab => ?_
  exact hab (List.mem_filter.1 ha).2 (List.mem_filter.1 hb).2

/-- The map is what these rows say. -/
theorem holder?_eq_some_iff (h : t.Sound) {p : UInt16} {x : Holder} :
    t.holder? p = some x ↔ ∃ r : PortRow, r ∈ (t.select (·.isActive)).map (·.2) ∧ r.port = p.toNat ∧
      r.holder? = some x := by
  rw [← h.records_iff]
  constructor
  · rintro ⟨e, he, hact, hport, hx⟩
    exact ⟨e.2, List.mem_map.2 ⟨e, List.mem_filter.2 ⟨he, hact⟩, rfl⟩, hport,
      (PortRow.holder?_eq_some (h.valid e he)).2 hx⟩
  · rintro ⟨_, hr, hport, hx⟩
    obtain ⟨e, he, rfl⟩ := List.mem_map.1 hr
    obtain ⟨hmem, hact⟩ := List.mem_filter.1 he
    exact ⟨e, hmem, hact, hport, (PortRow.holder?_eq_some (h.valid e hmem)).1 hx⟩

/-- The list of held ports can be read; it has each port once, and its holders are those of the map. -/
theorem active_eq (h : t.Sound) (now : Instant) :
    ∃ as, t.active now = .ok as ∧ as.Pairwise (·.port ≠ ·.port) ∧
      ∀ p, (as.find? (·.port == p)).map (·.holder) = t.holder? p := by
  -- Each row is known by its port and the holder it names, and so is each allocation that is read.
  let key (r : PortRow) : Int × Option Holder := (r.port, r.holder?)
  let key' (a : PortAllocation) : Int × Option Holder := (a.port.toNat, some a.holder)
  let rows := (t.select (·.isActive)).map (·.2)
  have hperm : (rows.mergeSort fun a b => a.port ≤ b.port).Perm rows := List.mergeSort_perm _ _
  have hread : ∀ r ∈ rows.mergeSort fun a b => a.port ≤ b.port,
      ∃ a, r.allocation now = .ok a ∧ key r = key' a := by
    intro r hr
    obtain ⟨e, he, rfl⟩ := List.mem_map.1 (hperm.mem_iff.1 hr)
    obtain ⟨hmem, hact⟩ := List.mem_filter.1 he
    obtain ⟨a, ha, hport, hholder⟩ := (h.valid e hmem).allocation_eq hact now
    exact ⟨a, ha, by simp only [key, key', hport, hholder]⟩
  obtain ⟨as, hok, hkeys⟩ := exists_mapM_eq_ok hread
  have hdiff : as.Pairwise (·.port ≠ ·.port) := by
    have hsorted := (hperm.pairwise_iff fun hab => Ne.symm hab).2 h.pairwise_active
    have hports : as.map (fun a => (a.port.toNat : Int)) =
        (rows.mergeSort fun a b => a.port ≤ b.port).map (·.port) := by
      simpa [key, key', Function.comp_def] using congrArg (List.map Prod.fst) hkeys
    refine (pairwise_ne_of_map_eq hports hsorted).imp fun hne heq => hne ?_
    rw [heq]
  refine ⟨as, hok, hdiff, fun p => Option.ext fun x => ?_⟩
  have hkey : (∃ a ∈ as, key' a = (↑p.toNat, some x)) ↔ ∃ r ∈ rows, key r = (↑p.toNat, some x) := by
    rw [← List.mem_map, ← List.mem_map, hkeys]
    exact (hperm.map key).mem_iff
  simp only [key, key', Prod.mk.injEq] at hkey
  rw [h.holder?_eq_some_iff, ← hkey, Option.map_eq_some_iff]
  simp only [find?_key_eq_some hdiff]
  constructor
  · rintro ⟨a, ⟨ha, rfl⟩, rfl⟩
    exact ⟨a, ha, rfl, rfl⟩
  · rintro ⟨a, ha, hport, hholder⟩
    exact ⟨a, ⟨ha, UInt16.toNat_inj.1 (by omega)⟩, Option.some.inj hholder⟩

end Sound

end PortTable

end ProxyFleet

import Mathlib.Data.List.Nodup
import ProxyFleet.Proofs.Ports.Rows

/-!
# Held ports and recorded ports agree

Two copies say who holds a port: the list of held ports and the rows of the table. `Ports.Agrees`
ties them together: a port of the range is held exactly as its row says, and no other port is held,
whatever the table says about it.

* `Ports.Free` : a port that can be taken;
* `Ports.taken` : the ports after one was reserved and recorded;
* `Ports.Mirrors` : as much of the agreement as there has to be for a port to be taken: the ports of the
  range that are held are those that the rows say are held (`Mirrors.allocate_cases`);
* `Agrees.allocateAt_of_free`, `Agrees.allocateAt_of_not_free`, `Agrees.allocate_cases` : taking a
  port succeeds for free ports only, and then never fails in the table;
* `Agrees.release`, `Agrees.releaseOwner`, `Agrees.assign` : the other changes keep the agreement.
-/

namespace ProxyFleet

set_option autoImplicit false

/-- The error comes from a statement that was refused or a row that cannot be read. -/
def PortError.ofTable : PortError → Bool
  | store (.notFound _) => false
  | store _ => true
  | _ => false

theorem PortSettings.mem_ports {r : PortSettings} {p : UInt16} : p ∈ r.ports ↔ r.contains p = true := by
  have hlast := r.last.toNat_lt
  simp only [ports, contains, List.mem_map, List.mem_range, Bool.and_eq_true, decide_eq_true_eq,
    UInt16.le_iff_toNat_le]
  constructor
  · rintro ⟨i, hi, rfl⟩
    rw [UInt16.toNat_ofNat_of_lt' (by show r.first.toNat + i < 2 ^ 16; omega)]
    omega
  · rintro ⟨hfirst, hle⟩
    refine ⟨p.toNat - r.first.toNat, by omega, ?_⟩
    rw [Nat.add_sub_cancel' hfirst, UInt16.ofNat_toNat]

theorem PortSettings.nodup_ports (r : PortSettings) : r.ports.Nodup := by
  have hlast := r.last.toNat_lt
  rw [PortSettings.ports]
  refine List.Nodup.map_on (fun i hi j hj hij => ?_) List.nodup_range
  rw [List.mem_range] at hi hj
  have hnat := congrArg UInt16.toNat hij
  rw [UInt16.toNat_ofNat_of_lt' (by show r.first.toNat + i < 2 ^ 16; omega),
    UInt16.toNat_ofNat_of_lt' (by show r.first.toNat + j < 2 ^ 16; omega)] at hnat
  omega

namespace Ports

/-- A port that can be taken: it belongs to the range, nobody holds it, and it is not refused. -/
def Free (s : Ports) (refused : UInt16 → Bool) (p : UInt16) : Prop :=
  s.range.contains p = true ∧ s.holder? p = none ∧ refused p = false

instance (s : Ports) (refused : UInt16 → Bool) (p : UInt16) : Decidable (s.Free refused p) :=
  inferInstanceAs (Decidable (_ ∧ _))

/-- The ports after one was reserved and recorded. -/
def taken (s : Ports) (a : PortAllocation) : Ports :=
  { s.hold a with table := s.table.insert (PortRow.ofAllocation a) }

@[simp] theorem range_taken (s : Ports) (a : PortAllocation) : (s.taken a).range = s.range := rfl

theorem holder?_taken (s : Ports) (a : PortAllocation) :
    (s.taken a).holder? = Function.update s.holder? a.port (some a.holder) :=
  (holder?_congr rfl).trans (holder?_hold s a)

@[simp] theorem range_release (s : Ports) (p : UInt16) (now : Instant) :
    (s.release p now).2.range = s.range := rfl

theorem holder?_release (s : Ports) (p : UInt16) (now : Instant) :
    (s.release p now).2.holder? = Function.update s.holder? p none :=
  (holder?_congr rfl).trans (holder?_drop s p)

theorem table_holder?_release (s : Ports) (p : UInt16) (now : Instant) :
    (s.release p now).2.table.holder? = Function.update s.table.holder? p none :=
  PortTable.holder?_release s.table p now

/-- A reserved port that no row says is held is recorded without fail. -/
theorem commit_hold {s : Ports} {a : PortAllocation} (h : s.table.isHeld a.port = false) :
    (s.hold a).commit a = (.ok a.port, s.taken a) := by
  rw [commit, table_hold, PortTable.record_eq_ok h]
  rfl

/-- A port that can be taken is, where no row says that it is held. -/
theorem allocateAt_eq_ok {s : Ports} {refused : UInt16 → Bool} {p : UInt16} (hf : s.Free refused p)
    (ht : s.table.isHeld p = false) (owner : Int) (purpose : PortPurpose) (now : Instant) :
    s.allocateAt refused p owner purpose now =
      (.ok p, s.taken { port := p, owner, purpose, allocatedAt := now }) := by
  obtain ⟨hc, hn, hr⟩ := hf
  rw [allocateAt, reserveAt, hc, find?_eq_none_iff.2 hn, hr]
  exact commit_hold ht

/-! ## The same ports -/

/-- Each port is held once, and of the range those are held that the rows say are held, by whomever. -/
structure Mirrors (s : Ports) : Prop where
  ascending : Ascending s.held
  agree : ∀ p, s.range.contains p = true → s.isHeld p = s.table.isHeld p

namespace Mirrors

variable {s : Ports}

/-- A port of the range that nobody holds has no row that says otherwise. -/
theorem unrecorded (h : s.Mirrors) {p : UInt16} (hc : s.range.contains p = true) (hn : s.holder? p = none) :
    s.table.isHeld p = false := by
  rw [← h.agree p hc, isHeld_eq, hn]
  rfl

/-- Taking the first free port takes a free one, or there is none and nothing changes. -/
theorem allocate_cases (h : s.Mirrors) (refused : UInt16 → Bool) (owner : Int) (purpose : PortPurpose)
    (now : Instant) :
    (∃ p, s.Free refused p ∧ s.allocate refused owner purpose now =
      (.ok p, s.taken { port := p, owner, purpose, allocatedAt := now })) ∨
    ((∀ p, ¬s.Free refused p) ∧ s.allocate refused owner purpose now =
      (.error (.exhausted s.range.first s.range.last s.usedInRange), s)) := by
  unfold allocate reserve
  cases hp : s.range.ports.find? fun p => !s.isHeld p && !refused p with
  | none =>
    refine .inr ⟨fun p hf => ?_, rfl⟩
    obtain ⟨hc, hn, hr⟩ := hf
    have := List.find?_eq_none.1 hp p (PortSettings.mem_ports.2 hc)
    simp [isHeld_eq, hn, hr] at this
  | some p =>
    have hc := PortSettings.mem_ports.1 (List.mem_of_find?_eq_some hp)
    have hf := List.find?_some hp
    simp only [isHeld_eq, Bool.and_eq_true, Bool.not_eq_true', Option.isSome_eq_false_iff,
      Option.isNone_iff_eq_none] at hf
    exact .inl ⟨p, ⟨hc, hf.1, hf.2⟩, commit_hold (h.unrecorded hc hf.1)⟩

end Mirrors

/-! ## The agreement -/

/-- Each port of the range is held as its row says, and no other port is held. -/
structure Agrees (s : Ports) : Prop where
  ascending : Ascending s.held
  sound : s.table.Sound
  agree : ∀ p, s.holder? p = if s.range.contains p = true then s.table.holder? p else none

namespace Agrees

variable {s : Ports}

theorem initial (range : PortSettings) : Agrees { range } where
  ascending := Ascending.nil
  sound := PortTable.Sound.empty
  agree p := by
    have hn : holder? { range } p = none := rfl
    have ht : PortTable.holder? ({} : PortTable) p = none := rfl
    rw [hn, ht, ite_self]

/-- Counting a conflict changes nothing else. -/
theorem conflicts (h : s.Agrees) (n : Nat) : Agrees { s with conflicts := n } :=
  ⟨h.ascending, h.sound, h.agree⟩

theorem contains_of_held (h : s.Agrees) {p : UInt16} {x : Holder} (hp : s.holder? p = some x) :
    s.range.contains p = true := by
  by_contra hc
  rw [h.agree, if_neg hc] at hp
  cases hp

theorem recorded_of_held (h : s.Agrees) {p : UInt16} {x : Holder} (hp : s.holder? p = some x) :
    s.table.holder? p = some x := by
  rw [← hp, h.agree, if_pos (h.contains_of_held hp)]

theorem held_of_recorded (h : s.Agrees) {p : UInt16} {x : Holder} (hp : s.table.holder? p = some x)
    (hc : s.range.contains p = true) : s.holder? p = some x := by
  rw [h.agree, if_pos hc, hp]

theorem not_held_of_unrecorded (h : s.Agrees) {p : UInt16} (hp : s.table.holder? p = none) :
    s.holder? p = none := by
  rw [h.agree, hp, ite_self]

/-- A port of the range that nobody holds has no row that says otherwise. -/
theorem unrecorded (h : s.Agrees) {p : UInt16} (hc : s.range.contains p = true)
    (hn : s.holder? p = none) : s.table.holder? p = none := by
  rw [← hn, h.agree, if_pos hc]

theorem mirrors (h : s.Agrees) : s.Mirrors where
  ascending := h.ascending
  agree p hc := by rw [Ports.isHeld_eq, h.sound.isHeld_eq, h.agree, if_pos hc]

theorem isHeld_table (h : s.Agrees) {p : UInt16} (hc : s.range.contains p = true)
    (hn : s.holder? p = none) : s.table.isHeld p = false :=
  h.mirrors.unrecorded hc hn

/-- A change of one port in both copies: one of the range may go to anyone, any other to nobody. -/
theorem update_agree (h : s.Agrees) {p : UInt16} {x : Option Holder}
    (hx : s.range.contains p = true ∨ x = none) (q : UInt16) :
    Function.update s.holder? p x q =
      if s.range.contains q = true then Function.update s.table.holder? p x q else none := by
  rw [Function.update_apply, Function.update_apply]
  split_ifs with hq hc hc
  · rfl
  · exact hx.resolve_left fun hp => hc (hq ▸ hp)
  · rw [h.agree, if_pos hc]
  · rw [h.agree, if_neg hc]

/-! ### Taking ports -/

theorem table_holder?_taken (h : s.Agrees) {a : PortAllocation} (hc : s.range.contains a.port = true)
    (hn : s.holder? a.port = none) :
    (s.taken a).table.holder? = Function.update s.table.holder? a.port (some a.holder) :=
  PortTable.holder?_insert (h.isHeld_table hc hn)

theorem taken (h : s.Agrees) {a : PortAllocation} (hc : s.range.contains a.port = true)
    (hn : s.holder? a.port = none) : (s.taken a).Agrees where
  ascending := h.ascending.insert a
  sound := h.sound.insert (h.isHeld_table hc hn)
  agree p := by
    rw [holder?_taken, h.table_holder?_taken hc hn, range_taken]
    exact h.update_agree (.inl hc) p

variable {refused : UInt16 → Bool} {p : UInt16}

theorem allocateAt_of_free (h : s.Agrees) (hf : s.Free refused p) (owner : Int) (purpose : PortPurpose)
    (now : Instant) : s.allocateAt refused p owner purpose now =
      (.ok p, s.taken { port := p, owner, purpose, allocatedAt := now }) :=
  allocateAt_eq_ok hf (h.isHeld_table hf.1 hf.2.1) owner purpose now

theorem allocateAt_of_not_free (hf : ¬s.Free refused p) (owner : Int) (purpose : PortPurpose)
    (now : Instant) : ∃ e n, s.allocateAt refused p owner purpose now =
      (.error e, { s with conflicts := n }) ∧ e.ofTable = false := by
  unfold allocateAt reserveAt
  by_cases hc : s.range.contains p = true
  · rw [hc]
    cases hn : s.find? p with
    | some a => exact ⟨_, _, rfl, rfl⟩
    | none =>
      cases hr : refused p with
      | true => exact ⟨_, _, rfl, rfl⟩
      | false => exact absurd ⟨hc, find?_eq_none_iff.1 hn, hr⟩ hf
  · rw [Bool.not_eq_true] at hc
    rw [hc]
    exact ⟨_, _, rfl, rfl⟩

/-- Taking the first free port takes a free one, or there is none and nothing changes. -/
theorem allocate_cases (h : s.Agrees) (refused : UInt16 → Bool) (owner : Int) (purpose : PortPurpose)
    (now : Instant) :
    (∃ p, s.Free refused p ∧ s.allocate refused owner purpose now =
      (.ok p, s.taken { port := p, owner, purpose, allocatedAt := now })) ∨
    ((∀ p, ¬s.Free refused p) ∧ s.allocate refused owner purpose now =
      (.error (.exhausted s.range.first s.range.last s.usedInRange), s)) :=
  h.mirrors.allocate_cases refused owner purpose now

/-! ### Giving ports back -/

theorem release (h : s.Agrees) (p : UInt16) (now : Instant) : (s.release p now).2.Agrees where
  ascending := h.ascending.filter _
  sound := h.sound.release p now
  agree q := by
    rw [holder?_release, table_holder?_release, range_release]
    exact h.update_agree (.inr rfl) q

/-- A port that was given back is free, if it belongs to the range and is not refused. -/
theorem free_release_self {refused : UInt16 → Bool} {p : UInt16} (now : Instant) :
    (s.release p now).2.Free refused p ↔ s.range.contains p = true ∧ refused p = false := by
  rw [Free, holder?_release, Function.update_self, range_release]
  simp

/-- Another owner gets a port that is held, in both copies; for a port that is not, nothing changes. -/
theorem assign_cases (h : s.Agrees) (p : UInt16) (owner : Int) :
    (∃ x s', s.holder? p = some x ∧ s.assign p owner = (.ok (), s') ∧ s'.Agrees ∧ s'.range = s.range ∧
      s'.holder? = Function.update s.holder? p (some ⟨owner, x.purpose⟩) ∧
      s'.table.holder? = Function.update s.table.holder? p (some ⟨owner, x.purpose⟩)) ∨
    (s.holder? p = none ∧ ∃ what, s.assign p owner = (.error (.store (.notFound what)), s)) := by
  unfold assign
  cases hf : s.find? p with
  | none => exact .inr ⟨find?_eq_none_iff.1 hf, _, rfl⟩
  | some a =>
    have hport : a.port = p := by simpa using List.find?_some hf
    subst hport
    have hx : s.holder? a.port = some a.holder := by rw [holder?, hf, Option.map_some]
    have htable : (s.table.reassign a.port owner).holder? =
        Function.update s.table.holder? a.port (some ⟨owner, a.purpose⟩) := by
      rw [PortTable.holder?_reassign, h.recorded_of_held hx]
      rfl
    refine .inl ⟨a.holder, _, hx, rfl, ⟨h.ascending.insert _, h.sound.reassign a.port owner, fun q => ?_⟩,
      rfl, holder?_hold s { a with owner }, htable⟩
    show (s.hold { a with owner }).holder? q =
      if s.range.contains q = true then (s.table.reassign a.port owner).holder? q else none
    rw [holder?_hold, htable]
    exact h.update_agree (.inl (h.contains_of_held hx)) q

end Agrees

end Ports

end ProxyFleet

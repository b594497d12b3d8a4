import Mathlib.Data.Set.Card
import ProxyFleet.Proofs.Ports.Phases
import ProxyFleet.Proofs.Ports.Taking

/-!
# The numbers on the use of a range

The number of available ports is a difference of two numbers: of the ports of the range, and of the held
ports that belong to it. It is what it should be because no port is held twice, and this is so of all ports
that calls leave behind, whatever the table says and whichever calls overlap.

* `Ports.Reachable` : the ports after any calls and any phases of calls, from any range and any table;
* `Reachable.ascending` : each port is held once (`Started.ascending`, `ascending_finish`, `ascending_call`);
* `Ports.AddUp`, `metrics_add_up` : the numbers fit together and count what they say.
-/

namespace ProxyFleet

set_option autoImplicit false

/-- A range that passes its check does not end before it starts. -/
theorem PortSettings.first_le_last {r : PortSettings} (h : r.check = .ok ()) :
    r.first.toNat ≤ r.last.toNat := by
  unfold check at h
  split_ifs at h with hfirst hlast hreversed
  exact UInt16.le_iff_toNat_le.1 (UInt16.not_lt.1 hreversed)

theorem PortSettings.length_ports (r : PortSettings) : r.ports.length = r.last.toNat + 1 - r.first.toNat := by
  rw [ports, List.length_map, List.length_range]

namespace Ports

variable {s : Ports}

/-! ## Each port is held once -/

theorem Started.ascending {started : Except PortError PendingCall × Ports} (hstart : Started s started)
    (h : Ascending s.held) : Ascending started.2.held := by
  cases hstart with
  | failed => exact h
  | record a => exact h.insert a
  | release port => exact h.filter _
  | reassign a owner => exact h.insert { a with owner }

theorem Started.range_eq {started : Except PortError PendingCall × Ports} (hstart : Started s started) :
    started.2.range = s.range := by
  cases hstart with
  | failed => rfl
  | record => rfl
  | release => rfl
  | reassign => rfl

theorem ascending_commit (h : Ascending s.held) (a : PortAllocation) : Ascending (s.commit a).2.held := by
  unfold commit
  cases s.table.record a with
  | ok table => exact h
  | error e => exact h.filter _

theorem ascending_finish (h : Ascending s.held) (now : Instant) (x : PendingCall) :
    Ascending (s.finish now x).2.held := by
  cases x with
  | record a => exact ascending_commit h a
  | release port => exact h
  | reassign port owner => exact h

theorem ascending_phased (h : Ascending s.held) (now : Instant) (c : PhasedCall) :
    Ascending (s.call now c.toCall).2.held := by
  rw [call_eq_phases]
  have hstart := (started_start s now c).ascending h
  rcases hphase : s.start now c with ⟨answer, s'⟩
  rw [hphase] at hstart
  cases answer with
  | error e => exact hstart
  | ok x => exact ascending_finish hstart now x

theorem ascending_commitAll (h : Ascending s.held) (as : List PortAllocation) :
    Ascending (s.commitAll as).2.held := by
  refine List.foldlRecOn as _ (motive := fun x : Nat × Ports => Ascending x.2.held) h ?_
  rintro ⟨n, s⟩ hs a -
  have hcommit : Ascending (s.commit a).2.held := ascending_commit hs a
  dsimp only
  split
  · next heq => rwa [heq] at hcommit
  · next heq => rwa [heq] at hcommit

theorem ascending_restore (h : Ascending s.held) (now : Instant) : Ascending (s.restore now).2.held := by
  unfold restore
  cases s.table.active now with
  | error e => exact h
  | ok as => exact Ascending.nil.foldl_insert _

theorem range_restore (s : Ports) (now : Instant) : (s.restore now).2.range = s.range := by
  unfold restore
  cases s.table.active now with
  | error e => rfl
  | ok as => rfl

theorem ascending_call (h : Ascending s.held) (now : Instant) (c : PortCall) :
    Ascending (s.call now c).2.held := by
  cases c with
  | allocate refused owner purpose => exact ascending_phased h now (.allocate refused owner purpose)
  | allocateAt refused port owner purpose => exact ascending_phased h now (.allocateAt refused port owner purpose)
  | release port => exact ascending_phased h now (.release port)
  | assign port owner => exact ascending_phased h now (.assign port owner)
  | releaseOwner owner =>
    exact List.foldlRecOn (s.ofOwner owner) _ (motive := fun s : Ports => Ascending s.held) h
      fun _ hs port _ => ascending_phased hs now (.release port)
  | scan refused =>
    refine ascending_commitAll ?_ _
    rw [foldl_hold]
    exact h.foldl_insert _
  | restore => exact ascending_restore h now
  | cleanup before => exact h
  | reopen range => exact ascending_restore (s := { range, table := s.table }) Ascending.nil now

/-- The ports after calls, of which some may be between their two phases, starting with any range over any
table. The second phase may be of any call. -/
inductive Reachable : Ports → Prop where
  | fresh (range : PortSettings) (table : PortTable) : Reachable { range, table }
  | call {s : Ports} (h : Reachable s) (now : Instant) (c : PortCall) : Reachable (s.call now c).2
  | start {s : Ports} (h : Reachable s) (now : Instant) (c : PhasedCall) : Reachable (s.start now c).2
  | finish {s : Ports} (h : Reachable s) (now : Instant) (x : PendingCall) : Reachable (s.finish now x).2

theorem Reachable.run (h : s.Reachable) (calls : List (Instant × PortCall)) : (s.run calls).2.Reachable := by
  induction calls generalizing s with
  | nil => exact h
  | cons x calls ih => exact ih (h.call x.1 x.2)

theorem Reachable.ascending (h : s.Reachable) : Ascending s.held := by
  induction h with
  | fresh => exact Ascending.nil
  | call _ now c ih => exact ascending_call ih now c
  | start _ now c ih => exact (started_start _ now c).ascending ih
  | finish _ now x ih => exact ascending_finish ih now x

/-! ## Counting -/

/-- The numbers fit together and count what they say. -/
structure AddUp (s : Ports) : Prop where
  total : (s.metrics.total : ℤ) = s.range.last.toNat - s.range.first.toNat + 1
  parts : s.metrics.allocated + s.metrics.available = s.metrics.total
  available : s.metrics.available = s.availableCount
  count : s.availableCount = {p : UInt16 | s.range.contains p = true ∧ s.isAvailable p = true}.ncard

/-- The available ports of the range, counted along the range. -/
theorem ncard_available (s : Ports) :
    {p : UInt16 | s.range.contains p = true ∧ s.isAvailable p = true}.ncard =
      s.range.ports.countP fun p => !s.isHeld p := by
  have hnodup : (s.range.ports.filter fun p => !s.isHeld p).Nodup := (PortSettings.nodup_ports s.range).filter _
  have hset : {p : UInt16 | s.range.contains p = true ∧ s.isAvailable p = true} =
      ((s.range.ports.filter fun p => !s.isHeld p).toFinset : Set UInt16) := by
    ext p
    simp [isAvailable, PortSettings.mem_ports]
  rw [hset, Set.ncard_coe_finset, List.toFinset_card_of_nodup hnodup, List.countP_eq_length_filter]

/-- **The numbers on the use of a range add up**, of a range that passes its check: their total is the size of
the range, and of it the ports that are not allocated are those that are available, as counted one by one. So
it is after any calls, between the phases of calls, and over any table. -/
theorem metrics_add_up (h : s.Reachable) (hrange : s.range.check = .ok ()) : s.AddUp := by
  have hends : s.range.first.toNat ≤ s.range.last.toNat := PortSettings.first_le_last hrange
  have hsize : s.range.size = s.range.ports.length := by
    rw [PortSettings.length_ports, PortSettings.size]
    omega
  -- each port of the range is either held or not
  have hports : s.range.size = s.usedInRange + s.range.ports.countP fun p => !s.isHeld p := by
    rw [hsize, usedInRange_eq h.ascending, List.length_eq_countP_add_countP s.isHeld]
    simp
  refine ⟨?_, ?_, rfl, ?_⟩
  · show ((s.range.last.toNat - s.range.first.toNat + 1 : ℕ) : ℤ) = _
    omega
  · show s.usedInRange + (s.range.size - s.usedInRange) = s.range.size
    omega
  · rw [ncard_available, availableCount]
    omega

/-- Two ports are taken, the range is made smaller, so that one of them is outside it, and a third port is
reserved, but not recorded yet. -/
def sampleNarrowed : Ports :=
  let calls : List PortCall :=
    [.allocateAt (fun _ => false) 10000 1 .inbound, .allocateAt (fun _ => false) 10002 2 .inbound,
      .reopen { first := 10001, last := 10003 }]
  let s := (run { range := { first := 10000, last := 10003 } } (calls.map fun c => (⟨0⟩, c))).2
  (s.start ⟨0⟩ (.allocate (fun _ => false) 3 .outbound)).2

theorem reachable_sampleNarrowed : sampleNarrowed.Reachable :=
  ((Reachable.fresh { first := 10000, last := 10003 } {}).run _).start ⟨0⟩ _

theorem range_sampleNarrowed : sampleNarrowed.range = { first := 10001, last := 10003 } :=
  (started_start _ _ _).range_eq.trans (range_restore _ _)

theorem metrics_add_up_sampleNarrowed :
    sampleNarrowed.Reachable ∧ sampleNarrowed.range.check = .ok () ∧ sampleNarrowed.AddUp :=
  have hrange : sampleNarrowed.range.check = .ok () := by
    rw [range_sampleNarrowed]
    rfl
  ⟨reachable_sampleNarrowed, hrange, metrics_add_up reachable_sampleNarrowed hrange⟩

end Ports

end ProxyFleet

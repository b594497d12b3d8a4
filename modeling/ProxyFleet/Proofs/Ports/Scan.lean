import ProxyFleet.Proofs.Ports.Taking

/-!
# What a scan records

A scan holds for the system the ports of the range that are refused although nobody holds them. Nobody could
have taken these, so the scan is of no matter to who asks for a port next; and a second one finds nothing.

* `Mirrors.takenAll` : held and recorded ports are still the same ones if more are taken;
* `foreign_scanned`, `free_scanned_iff` : after a scan no foreign port is left, and the same ports are free;
* `scan_records_foreign` : a scan, where held and recorded ports are the same.
-/

namespace ProxyFleet.Ports

set_option autoImplicit false

variable {s : Ports} {as : List PortAllocation}

theorem isHeld_takenAll (hd : as.Pairwise (·.port ≠ ·.port)) (p : UInt16) :
    (s.takenAll as).isHeld p = (s.isHeld p || as.any (·.port == p)) := by
  rw [isHeld, find?_takenAll s hd, Option.isSome_or, List.isSome_find?, Bool.or_comm]
  rfl

theorem Mirrors.takenAll (h : s.Mirrors) (hd : as.Pairwise (·.port ≠ ·.port)) : (s.takenAll as).Mirrors where
  ascending := h.ascending.foldl_insert as
  agree p hc := by
    rw [isHeld_takenAll hd, h.agree p hc]
    exact (s.table.isHeld_insertAll as p).symm

variable (refused : UInt16 → Bool) (now : Instant)

/-- The foreign ports are held now. -/
theorem foreign_scanned : (s.scanned refused now).foreign refused = [] := by
  refine List.eq_nil_iff_forall_not_mem.2 fun p hp => ?_
  obtain ⟨hc, hn, hr⟩ := mem_foreign.1 hp
  rw [holder?_scanned] at hn
  split_ifs at hn with hforeign
  exact hforeign ⟨hc, hn, hr⟩

theorem scanned_eq_self {refused : UInt16 → Bool} {now : Instant} (h : s.foreign refused = []) :
    s.scanned refused now = s := by
  rw [scanned, h]
  rfl

/-- A foreign port is refused, so that it was not free before. -/
theorem free_scanned_iff {p : UInt16} : (s.scanned refused now).Free refused p ↔ s.Free refused p := by
  have hholder := s.holder?_scanned refused now p
  constructor
  · rintro ⟨hc, hn, hr⟩
    rw [hholder] at hn
    split_ifs at hn
    exact ⟨hc, hn, hr⟩
  · rintro ⟨hc, hn, hr⟩
    have hforeign : ¬s.Foreign refused p := fun h => Bool.false_ne_true (hr.symm.trans h.2.2)
    rw [if_neg hforeign] at hholder
    exact ⟨hc, hholder.trans hn, hr⟩

theorem mem_foreign_map {a : PortAllocation} :
    a ∈ (s.foreign refused).map (systemAllocation now) ↔
      s.Foreign refused a.port ∧ a = { port := a.port, owner := -1, purpose := .system, allocatedAt := now } := by
  rw [List.mem_map]
  constructor
  · rintro ⟨p, hp, rfl⟩
    exact ⟨mem_foreign.1 hp, rfl⟩
  · rintro ⟨hp, ha⟩
    exact ⟨a.port, mem_foreign.2 hp, ha.symm⟩

/-- What is held stays as it is. -/
theorem find?_scanned_of_some {p : UInt16} {a : PortAllocation} (h : s.find? p = some a) :
    (s.scanned refused now).find? p = some a := by
  have hnone : ((s.foreign refused).map (systemAllocation now)).find? (·.port == p) = none := by
    refine List.find?_eq_none.2 fun b hb hport => ?_
    obtain ⟨⟨-, hn, -⟩, -⟩ := (mem_foreign_map refused now).1 hb
    rw [beq_iff_eq.1 hport, holder?, h] at hn
    cases hn
  rw [scanned, find?_takenAll s (pairwise_foreign s refused now), hnone, Option.none_or, h]

/-- **What a scan records**, where the ports of the range that are held are those that the rows say are held.
It adds one allocation to the system for each port of the range that is refused although nobody holds it, and
answers how many; whatever was held stays as it was. A second scan adds nothing, and whoever asks for any port
next is given the same one as without the scan. -/
theorem scan_records_foreign (h : s.Mirrors) (refused : UInt16 → Bool) (now : Instant) :
    let (count, after) := s.scan refused now
    (∃ as, s.Adds as after ∧ count = as.length ∧ as.Pairwise (·.port ≠ ·.port) ∧
      ∀ a, a ∈ as ↔ s.Foreign refused a.port ∧
        a = { port := a.port, owner := -1, purpose := .system, allocatedAt := now }) ∧
    (∀ p a, s.find? p = some a → after.find? p = some a) ∧
    (∀ later, after.scan refused later = (0, after)) ∧
    ∀ owner purpose later p, (after.allocate refused owner purpose later).1 = .ok p ↔
      (s.allocate refused owner purpose later).1 = .ok p := by
  have hdiff := pairwise_foreign s refused now
  have hafter : (s.scanned refused now).Mirrors := h.takenAll hdiff
  rw [scan_eq_scanned (fun p hp => h.unrecorded hp.1 hp.2.1)]
  refine ⟨⟨_, adds_takenAll s hdiff, (List.length_map _).symm, hdiff, fun _ => mem_foreign_map refused now⟩,
    fun p a => find?_scanned_of_some refused now, fun later => ?_, fun owner purpose later p => ?_⟩
  · rw [scan_eq_scanned (fun p hp => hafter.unrecorded hp.1 hp.2.1), foreign_scanned,
      scanned_eq_self (foreign_scanned refused now)]
    rfl
  · rw [hafter.allocate_eq_ok_iff, h.allocate_eq_ok_iff]
    simp only [free_scanned_iff]

theorem scan_records_foreign_sampleLast :
    sampleLast.Mirrors ∧
    let (count, after) := sampleLast.scan (fun _ => true) ⟨0⟩
    (∃ as, sampleLast.Adds as after ∧ count = as.length ∧ as.Pairwise (·.port ≠ ·.port) ∧
      ∀ a, a ∈ as ↔ sampleLast.Foreign (fun _ => true) a.port ∧
        a = { port := a.port, owner := -1, purpose := .system, allocatedAt := ⟨0⟩ }) ∧
    (∀ p a, sampleLast.find? p = some a → after.find? p = some a) ∧
    (∀ later, after.scan (fun _ => true) later = (0, after)) ∧
    ∀ owner purpose later p, (after.allocate (fun _ => true) owner purpose later).1 = .ok p ↔
      (sampleLast.allocate (fun _ => true) owner purpose later).1 = .ok p :=
  ⟨mirrors_sampleLast, scan_records_foreign mirrors_sampleLast (fun _ => true) ⟨0⟩⟩

example : (sampleLast.scan (fun _ => true) ⟨0⟩).1 = 1 := rfl

end ProxyFleet.Ports

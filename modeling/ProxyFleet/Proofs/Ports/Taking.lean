import ProxyFleet.Proofs.Ports.Sweep
import ProxyFleet.Proofs.Ports.Taken

/-!
# Which port is had, and what has changed

A port that is asked for is had unless there is a reason against it, of which the first in a fixed order is
named; of the ports that nobody asks for by number the least is had that is free. Either way the ports that
were held before stay as they were.

* `Ports.Adds` : nothing has changed but that some ports are held and recorded besides;
* `Ports.Refuses` : the reason why a port that is asked for is not to be had;
* `Ports.allocateAt_answers` : asking for a port, whatever is held and recorded;
* `Ports.usedInRange_eq` : the ports of the range that are held, counted along the range;
* `Ports.allocate_first_fit` : asking for any port, where held and recorded ports are the same.
-/

namespace ProxyFleet

set_option autoImplicit false

/-- The error says that the port is held. -/
def PortError.isConflict : PortError → Bool
  | conflict .. => true
  | _ => false

namespace Ports

variable {s : Ports}

/-! ## What is added -/

/-- Afterwards these allocations are held and recorded besides, and nothing else has changed. -/
structure Adds (s : Ports) (as : List PortAllocation) (after : Ports) : Prop where
  range : after.range = s.range
  conflicts : after.conflicts = s.conflicts
  held : ∀ p, after.find? p = (as.find? (·.port == p)).or (s.find? p)
  ascending : Ascending s.held → Ascending after.held
  table : after.table = s.table.insertAll as

theorem adds_takenAll (s : Ports) {as : List PortAllocation} (hd : as.Pairwise (·.port ≠ ·.port)) :
    s.Adds as (s.takenAll as) where
  range := rfl
  conflicts := rfl
  held := find?_takenAll s hd
  ascending h := h.foldl_insert as
  table := rfl

theorem adds_taken (s : Ports) (a : PortAllocation) : s.Adds [a] (s.taken a) :=
  adds_takenAll s (List.pairwise_singleton _ a)

/-! ## A port that is asked for -/

/-- Why a port that is asked for is not to be had: it is outside the range; or else it is held; or else it is
refused; or else a row says that it is held, though it is not. -/
inductive Refuses (s : Ports) (refused : UInt16 → Bool) (port : UInt16) : PortError → Prop where
  | outside (hc : s.range.contains port = false) :
    Refuses s refused port (.outOfRange port s.range.first s.range.last)
  | held (hc : s.range.contains port = true) {x : Holder} (hx : s.holder? port = some x) :
    Refuses s refused port (.conflict port x.owner x.purpose)
  | refused (hc : s.range.contains port = true) (hn : s.holder? port = none) (hr : refused port = true) :
    Refuses s refused port (.unavailable port)
  | recorded (hc : s.range.contains port = true) (hn : s.holder? port = none) (hr : refused port = false)
      (ht : s.table.isHeld port = true) :
    Refuses s refused port (.store (.database (.notUnique "port_allocations.port")))

variable {refused : UInt16 → Bool} {port : UInt16}

/-- A reservation that is undone leaves nothing behind. -/
theorem drop_hold {a : PortAllocation} (h : s.holder? a.port = none) : (s.hold a).drop a.port = s := by
  have hheld : (insertAllocation a s.held).filter (·.port != a.port) = s.held :=
    filter_insertAllocation (find?_eq_none_iff.2 h)
  exact congrArg (fun held => { s with held }) hheld

/-- Where the table refuses the row of a port that was reserved, all is as it was. -/
theorem commit_hold_of_isHeld {a : PortAllocation} (hn : s.holder? a.port = none)
    (ht : s.table.isHeld a.port = true) :
    (s.hold a).commit a = (.error (.store (.database (.notUnique "port_allocations.port"))), s) := by
  rw [commit, table_hold, PortTable.record, ht]
  exact congrArg (Prod.mk _) (drop_hold hn)

/-- A reason is answered, and nothing changes but the number of conflicts. -/
theorem Refuses.allocateAt_eq {e : PortError} (h : s.Refuses refused port e) (owner : Int) (purpose : PortPurpose)
    (now : Instant) : s.allocateAt refused port owner purpose now =
      (.error e, { s with conflicts := s.conflicts + if e.isConflict then 1 else 0 }) := by
  unfold allocateAt reserveAt
  cases h with
  | outside hc =>
    rw [hc]
    rfl
  | held hc hx =>
    obtain ⟨a, ha, rfl⟩ := Option.map_eq_some_iff.1 hx
    rw [hc, ha]
    rfl
  | refused hc hn hr =>
    rw [hc, find?_eq_none_iff.2 hn, hr]
    rfl
  | recorded hc hn hr ht =>
    rw [hc, find?_eq_none_iff.2 hn, hr]
    exact commit_hold_of_isHeld (a := { port, owner, purpose, allocatedAt := now }) hn ht

/-- Where there is no reason against it, the port is taken. -/
theorem allocateAt_of_not_refuses (h : ∀ e, ¬s.Refuses refused port e) (owner : Int) (purpose : PortPurpose)
    (now : Instant) : s.allocateAt refused port owner purpose now =
      (.ok port, s.taken { port, owner, purpose, allocatedAt := now }) := by
  have hc : s.range.contains port = true := by
    cases hc : s.range.contains port with
    | false => exact absurd (.outside hc) (h _)
    | true => rfl
  have hn : s.holder? port = none := by
    cases hx : s.holder? port with
    | none => rfl
    | some x => exact absurd (.held hc hx) (h _)
  have hr : refused port = false := by
    cases hr : refused port with
    | false => rfl
    | true => exact absurd (.refused hc hn hr) (h _)
  have ht : s.table.isHeld port = false := by
    cases ht : s.table.isHeld port with
    | false => rfl
    | true => exact absurd (.recorded hc hn hr ht) (h _)
  exact allocateAt_eq_ok ⟨hc, hn, hr⟩ ht owner purpose now

/-- **Asking for a port**, whatever is held and whatever the rows say. The answer is an error exactly if
there is a reason for it, and otherwise the port. An error leaves all as it was, but that conflicts are
counted; otherwise the port is held and recorded besides. -/
theorem allocateAt_answers (s : Ports) (refused : UInt16 → Bool) (port : UInt16) (owner : Int)
    (purpose : PortPurpose) (now : Instant) :
    let (answer, after) := s.allocateAt refused port owner purpose now
    (∀ e, answer = .error e ↔ s.Refuses refused port e) ∧
    (∀ p, answer = .ok p ↔ p = port ∧ ∀ e, ¬s.Refuses refused port e) ∧
    (∀ e, answer = .error e → after = { s with conflicts := s.conflicts + if e.isConflict then 1 else 0 }) ∧
    ∀ p, answer = .ok p → s.Adds [{ port, owner, purpose, allocatedAt := now }] after := by
  by_cases hreason : ∃ e, s.Refuses refused port e
  · obtain ⟨e, he⟩ := hreason
    -- two reasons would both be answered
    have honly : ∀ e', s.Refuses refused port e' → e = e' := fun e' he' =>
      Except.error.inj (congrArg Prod.fst
        ((he.allocateAt_eq owner purpose now).symm.trans (he'.allocateAt_eq owner purpose now)))
    rw [he.allocateAt_eq owner purpose now]
    refine ⟨fun e' => ⟨fun h => ?_, fun h => congrArg _ (honly e' h)⟩, fun p => ?_, fun e' h => ?_,
      fun p h => ?_⟩
    · exact Except.error.inj h ▸ he
    · exact iff_of_false (fun h => nomatch h) fun h => h.2 e he
    · obtain rfl := Except.error.inj h
      rfl
    · cases h
  · rw [not_exists] at hreason
    rw [allocateAt_of_not_refuses hreason owner purpose now]
    refine ⟨fun e => ?_, fun p => ?_, fun e h => ?_, fun _ _ => adds_taken s _⟩
    · exact iff_of_false (fun h => nomatch h) (hreason e)
    · simpa [hreason] using eq_comm
    · cases h

/-! ## Any port -/

/-- The ports of the range that are held, counted along the range. -/
theorem usedInRange_eq (h : Ascending s.held) : s.usedInRange = s.range.ports.countP s.isHeld := by
  have hheld : ((s.held.map (·.port)).filter s.range.contains).Nodup :=
    (List.pairwise_map.2 h.ports_ne).filter _
  have hports : (s.range.ports.filter s.isHeld).Nodup := (PortSettings.nodup_ports s.range).filter _
  have hsame : ∀ p,
      p ∈ (s.held.map (·.port)).filter s.range.contains ↔ p ∈ s.range.ports.filter s.isHeld := by
    intro p
    rw [List.mem_filter, List.mem_filter, PortSettings.mem_ports, and_comm]
    simp [isHeld, find?]
  have hperm := (List.perm_ext_iff_of_nodup hheld hports).2 hsame
  rw [usedInRange, List.countP_eq_length_filter (l := s.range.ports), ← hperm.length_eq,
    ← List.countP_eq_length_filter, List.countP_map]
  rfl

theorem Mirrors.allocate_eq_ok_iff (h : s.Mirrors) {p : UInt16} (owner : Int) (purpose : PortPurpose)
    (now : Instant) : (s.allocate refused owner purpose now).1 = .ok p ↔
      s.Free refused p ∧ ∀ q, s.Free refused q → p ≤ q := by
  rcases h.allocate_cases refused owner purpose now with ⟨p', hf, heq⟩ | ⟨hnone, heq⟩
  · have hleast : ∀ q, s.Free refused q → p' ≤ q := fun q => allocate_least (congrArg Prod.fst heq)
    rw [heq]
    constructor
    · intro hp
      obtain rfl := Except.ok.inj hp
      exact ⟨hf, hleast⟩
    · rintro ⟨hp, hmin⟩
      exact congrArg _ (UInt16.le_antisymm (hleast p hp) (hmin p' hf))
  · rw [heq]
    simp [hnone]

/-- **Asking for any port**, where the ports of the range that are held are those that the rows say are held.
The answer is the least port of the range that is neither held nor refused, which is then held and recorded
besides; or there is none, and the answer says how many of the range are held, and nothing has changed. -/
theorem allocate_first_fit (h : s.Mirrors) (refused : UInt16 → Bool) (owner : Int) (purpose : PortPurpose)
    (now : Instant) :
    let (answer, after) := s.allocate refused owner purpose now
    (∀ p, answer = .ok p ↔ s.Free refused p ∧ ∀ q, s.Free refused q → p ≤ q) ∧
    (∀ p, answer = .ok p → s.Adds [{ port := p, owner, purpose, allocatedAt := now }] after) ∧
    ((∀ p, ¬s.Free refused p) →
      answer = .error (.exhausted s.range.first s.range.last (s.range.ports.countP s.isHeld)) ∧ after = s) := by
  have hfit : ∀ p, (s.allocate refused owner purpose now).1 = .ok p ↔
      s.Free refused p ∧ ∀ q, s.Free refused q → p ≤ q := fun _ => h.allocate_eq_ok_iff owner purpose now
  rcases h.allocate_cases refused owner purpose now with ⟨p, hf, heq⟩ | ⟨-, heq⟩
  · rw [heq] at hfit ⊢
    refine ⟨hfit, fun q hq => ?_, fun hnone => absurd hf (hnone p)⟩
    obtain rfl := Except.ok.inj hq
    exact adds_taken s _
  · rw [heq] at hfit ⊢
    rw [← usedInRange_eq h.ascending]
    exact ⟨hfit, fun _ hp => (nomatch hp), fun _ => ⟨rfl, rfl⟩⟩

/-- The last two ports there are, the first of which is held. -/
def sampleLast : Ports :=
  taken { range := { first := 65534, last := 65535 } }
    { port := 65534, owner := 7, purpose := .inbound, allocatedAt := ⟨0⟩ }

theorem mirrors_sampleLast : sampleLast.Mirrors :=
  ((Agrees.initial _).taken (by decide) rfl).mirrors

theorem allocate_first_fit_sampleLast :
    sampleLast.Mirrors ∧
    let (answer, after) := sampleLast.allocate (fun _ => false) 8 .outbound ⟨0⟩
    (∀ p, answer = .ok p ↔
      sampleLast.Free (fun _ => false) p ∧ ∀ q, sampleLast.Free (fun _ => false) q → p ≤ q) ∧
    (∀ p, answer = .ok p →
      sampleLast.Adds [{ port := p, owner := 8, purpose := .outbound, allocatedAt := ⟨0⟩ }] after) ∧
    ((∀ p, ¬sampleLast.Free (fun _ => false) p) →
      answer = .error (.exhausted 65534 65535 (sampleLast.range.ports.countP sampleLast.isHeld)) ∧
        after = sampleLast) :=
  ⟨mirrors_sampleLast, allocate_first_fit mirrors_sampleLast (fun _ => false) 8 .outbound ⟨0⟩⟩

example : (sampleLast.allocate (fun _ => false) 8 .outbound ⟨0⟩).1 = .ok 65535 := rfl

end Ports

end ProxyFleet

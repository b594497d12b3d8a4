import ProxyFleet.Proofs.Ports.Sweep

/-!
# Runs of calls on the ports

* `PortCall`, `Ports.call` : a call on the ports, and what it answers and leaves;
* `Ports.run` : calls one after the other;
* `Agrees.call` : each call keeps the agreement and returns no error of the table;
* `run_agreement` : so it is after every run over an empty table, whatever is refused and however
  often the range changes.
-/

namespace ProxyFleet

set_option autoImplicit false

/-- A call on the ports. Which ports are refused may be another with each call. -/
inductive PortCall where
  | allocate (refused : UInt16 → Bool) (owner : Int) (purpose : PortPurpose)
  | allocateAt (refused : UInt16 → Bool) (port : UInt16) (owner : Int) (purpose : PortPurpose)
  | release (port : UInt16)
  | releaseOwner (owner : Int)
  | assign (port : UInt16) (owner : Int)
  | scan (refused : UInt16 → Bool)
  | restore
  /-- Forget the rows of ports that were released before a moment. -/
  | cleanup (before : Instant)
  /-- Start anew over the same table, with a range. -/
  | reopen (range : PortSettings)

/-- The error of an answer, if it is one. -/
def failure? {ε α : Type} : Except ε α → Option ε
  | .ok _ => none
  | .error e => some e

namespace Ports

/-- What a call does at a moment: the error it returns, if any, and the ports after it. -/
def call (s : Ports) (now : Instant) : PortCall → Option PortError × Ports
  | .allocate refused owner purpose => (s.allocate refused owner purpose now).map failure? id
  | .allocateAt refused port owner purpose =>
    (s.allocateAt refused port owner purpose now).map failure? id
  | .release port => (none, (s.release port now).2)
  | .releaseOwner owner => (none, (s.releaseOwner owner now).2)
  | .assign port owner => (s.assign port owner).map failure? id
  | .scan refused => (none, (s.scan refused now).2)
  | .restore => (s.restore now).map (fun r => (failure? r).map .store) id
  | .cleanup before => (none, { s with table := s.table.cleanup before })
  | .reopen range => (s.reopen range now).map (fun r => (failure? r).map .store) id

/-- Calls one after the other, each at its moment: the errors they return, and the ports after them. -/
def run (s : Ports) : List (Instant × PortCall) → List PortError × Ports
  | [] => ([], s)
  | (now, c) :: rest =>
    let (e?, s) := s.call now c
    let (es, s) := s.run rest
    (e?.toList ++ es, s)

namespace Agrees

variable {s : Ports}

theorem cleanup (h : s.Agrees) (before : Instant) :
    Agrees { s with table := s.table.cleanup before } where
  ascending := h.ascending
  sound := h.sound.cleanup before
  agree p := by
    show s.holder? p = if s.range.contains p = true then (s.table.cleanup before).holder? p else none
    rw [PortTable.holder?_cleanup, h.agree]

/-- Each call keeps the agreement, and returns no error of the table. -/
theorem call (h : s.Agrees) (now : Instant) (c : PortCall) :
    (s.call now c).2.Agrees ∧ ∀ e ∈ (s.call now c).1, e.ofTable = false := by
  cases c with
  | allocate refused owner purpose =>
    rw [Ports.call]
    rcases h.allocate_cases refused owner purpose now with ⟨p, hf, heq⟩ | ⟨-, heq⟩
    · rw [heq]
      exact ⟨h.taken hf.1 hf.2.1, by simp [failure?]⟩
    · rw [heq]
      exact ⟨h, by simp [failure?, PortError.ofTable]⟩
  | allocateAt refused port owner purpose =>
    rw [Ports.call]
    by_cases hf : s.Free refused port
    · rw [h.allocateAt_of_free hf]
      exact ⟨h.taken hf.1 hf.2.1, by simp [failure?]⟩
    · obtain ⟨e, n, heq, he⟩ := allocateAt_of_not_free hf owner purpose now
      rw [heq]
      exact ⟨h.conflicts n, by simp [failure?, he]⟩
  | release port => exact ⟨h.release port now, by simp [Ports.call]⟩
  | releaseOwner owner => exact ⟨h.releaseOwner owner now, by simp [Ports.call]⟩
  | assign port owner =>
    rw [Ports.call]
    rcases h.assign_cases port owner with ⟨x, s', -, heq, hs, -⟩ | ⟨-, what, heq⟩
    · rw [heq]
      exact ⟨hs, by simp [failure?]⟩
    · rw [heq]
      exact ⟨h, by simp [failure?, PortError.ofTable]⟩
  | scan refused =>
    obtain ⟨s', heq, hs, -⟩ := h.scan_eq refused now
    rw [Ports.call]
    rw [heq]
    exact ⟨hs, by simp⟩
  | restore =>
    obtain ⟨held, heq, hs⟩ := restore_eq h.sound now
    rw [Ports.call]
    rw [heq]
    exact ⟨hs, by simp [failure?]⟩
  | cleanup before => exact ⟨h.cleanup before, by simp [Ports.call]⟩
  | reopen range =>
    obtain ⟨held, heq, hs⟩ := reopen_eq h.sound range now
    rw [Ports.call]
    rw [heq]
    exact ⟨hs, by simp [failure?]⟩

theorem run (h : s.Agrees) (calls : List (Instant × PortCall)) :
    (s.run calls).2.Agrees ∧ ∀ e ∈ (s.run calls).1, e.ofTable = false := by
  induction calls generalizing s with
  | nil => exact ⟨h, by simp [Ports.run]⟩
  | cons x calls ih =>
    obtain ⟨now, c⟩ := x
    obtain ⟨hc, he⟩ := h.call now c
    obtain ⟨hr, hes⟩ := ih hc
    refine ⟨hr, fun e hmem => ?_⟩
    rcases List.mem_append.1 hmem with hmem | hmem
    · exact he e (Option.mem_toList.1 hmem)
    · exact hes e hmem

end Agrees

/-- **Held and recorded ports agree after every run** over an empty table. No port has two rows that
say it is held; each port is held once, and the held ports are those that the rows name in the range,
with the same owner and purpose; and no call has returned an error of the table. -/
theorem run_agreement (range : PortSettings) (calls : List (Instant × PortCall)) :
    let (errors, s) := run { range } calls
    (∀ port : Int, s.table.count (fun r => r.isActive && r.port == port) ≤ 1) ∧
    Ascending s.held ∧
    (∀ port x, s.holder? port = some x ↔ s.range.contains port = true ∧ s.table.Records port x) ∧
    ∀ e ∈ errors, e.ofTable = false := by
  obtain ⟨h, he⟩ := (Agrees.initial range).run calls
  refine ⟨h.sound.count_le_one, h.ascending, fun port x => ?_, he⟩
  rw [h.sound.records_iff, h.agree]
  split_ifs with hc
  · simp [hc]
  · simp [hc]

end Ports

end ProxyFleet

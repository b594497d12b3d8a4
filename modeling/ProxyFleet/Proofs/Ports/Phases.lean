import ProxyFleet.Proofs.Ports.Run

/-!
# Calls in two phases

A call that takes a port, gives it back or passes it on changes the held ports first and the table afterwards,
and between the two other calls may run. A `PortSession` is the ports with the calls that are in between, and a
schedule is a list of phases, each of which is the first one of a new call or the second one of a call that has
begun.

* `Ports.start`, `Ports.finish` : the two phases; `call_eq_phases` says that they make up the call;
* `Ports.Started`, `Ports.started_start` : all that the first phase of a call can do;
* `PortSession.step`, `PortSession.run` : the phases of any number of calls, one after the other;
* `PortSession.pendingAt` : what is left to do about a port.
-/

namespace ProxyFleet

set_option autoImplicit false

/-- A call that takes, gives back or passes on one port. -/
inductive PhasedCall where
  | allocate (refused : UInt16 → Bool) (owner : Int) (purpose : PortPurpose)
  | allocateAt (refused : UInt16 → Bool) (port : UInt16) (owner : Int) (purpose : PortPurpose)
  | release (port : UInt16)
  | assign (port : UInt16) (owner : Int)

/-- The call as a whole. -/
def PhasedCall.toCall : PhasedCall → PortCall
  | allocate refused owner purpose => .allocate refused owner purpose
  | allocateAt refused port owner purpose => .allocateAt refused port owner purpose
  | release port => .release port
  | assign port owner => .assign port owner

/-- The statement that is left to do of a call after its first phase. -/
inductive PendingCall where
  | record (a : PortAllocation)
  | release (port : UInt16)
  | reassign (port : UInt16) (owner : Int)
  deriving DecidableEq

/-- What a call does with its port. -/
inductive CallKind where
  | take
  | release
  | assign
  deriving DecidableEq

namespace PendingCall

/-- The port of the call. -/
def port : PendingCall → UInt16
  | record a => a.port
  | release port => port
  | reassign port _ => port

/-- What the call does with the port. -/
def kind : PendingCall → CallKind
  | record _ => .take
  | release _ => .release
  | reassign _ _ => .assign

end PendingCall

namespace Ports

/-! ## The two phases -/

/-- The first phase of a call changes the held ports: what is left to do then, or the error that ends the call. -/
def start (s : Ports) (now : Instant) : PhasedCall → Except PortError PendingCall × Ports
  | .allocate refused owner purpose => (s.reserve refused owner purpose now).map (·.map .record) id
  | .allocateAt refused port owner purpose => (s.reserveAt refused port owner purpose now).map (·.map .record) id
  | .release port => (.ok (.release port), s.drop port)
  | .assign port owner =>
    match s.find? port with
    | none => (.error (.store (.notFound s!"allocation for port {port}")), s)
    | some a => (.ok (.reassign port owner), s.hold { a with owner })

/-- The second phase of a call changes the table: the port that the call returns, if it takes one. A port that
the table refuses is held no longer, whoever holds it by now. -/
def finish (s : Ports) (now : Instant) : PendingCall → Except PortError (Option UInt16) × Ports
  | .record a => (s.commit a).map (·.map some) id
  | .release port => (.ok none, { s with table := s.table.release port now })
  | .reassign port owner => (.ok none, { s with table := s.table.reassign port owner })

/-- A call is its two phases, one right after the other. -/
theorem call_eq_phases (s : Ports) (now : Instant) (c : PhasedCall) :
    s.call now c.toCall =
      match s.start now c with
      | (.error e, s) => (some e, s)
      | (.ok x, s) => (s.finish now x).map failure? id := by
  have hcommit : ∀ r : Except PortError PortAllocation × Ports, (commitReserved r).map failure? id =
      match r.map (Except.map PendingCall.record) id with
      | (.error e, s) => (some e, s)
      | (.ok x, s) => (s.finish now x).map failure? id := by
    rintro ⟨answer, s⟩
    cases answer with
    | error e => rfl
    | ok a =>
      show (s.commit a).map failure? id = ((s.commit a).map (·.map some) id).map failure? id
      rcases s.commit a with ⟨answer, s'⟩
      cases answer with
      | error e => rfl
      | ok p => rfl
  cases c with
  | allocate refused owner purpose => exact hcommit _
  | allocateAt refused port owner purpose => exact hcommit _
  | release port => rfl
  | assign port owner =>
    rw [PhasedCall.toCall, call, assign, start]
    cases s.find? port with
    | none => rfl
    | some a => rfl

/-- What the first phase of a call does: it fails and changes no port, it reserves a port of the range that
nobody holds, it drops a port, or it gives one that is held to another owner. -/
inductive Started (s : Ports) : Except PortError PendingCall × Ports → Prop where
  | failed (e : PortError) (conflicts : Nat) : Started s (.error e, { s with conflicts })
  | record (a : PortAllocation) (hrange : s.range.contains a.port = true) (hfree : s.holder? a.port = none) :
    Started s (.ok (.record a), s.hold a)
  | release (port : UInt16) : Started s (.ok (.release port), s.drop port)
  | reassign (a : PortAllocation) (owner : Int) (hheld : s.find? a.port = some a) :
    Started s (.ok (.reassign a.port owner), s.hold { a with owner })

theorem started_start (s : Ports) (now : Instant) (c : PhasedCall) : Started s (s.start now c) := by
  cases c with
  | allocate refused owner purpose =>
    rw [start, reserve]
    cases hfind : s.range.ports.find? fun p => !s.isHeld p && !refused p with
    | none => exact .failed _ s.conflicts
    | some p =>
      have hfree := List.find?_some hfind
      simp only [isHeld_eq, Bool.and_eq_true, Bool.not_eq_true', Option.isSome_eq_false_iff,
        Option.isNone_iff_eq_none] at hfree
      exact .record { port := p, owner, purpose, allocatedAt := now }
        (PortSettings.mem_ports.1 (List.mem_of_find?_eq_some hfind)) hfree.1
  | allocateAt refused port owner purpose =>
    rw [start, reserveAt]
    by_cases hrange : s.range.contains port = true
    · rw [hrange]
      cases hfree : s.find? port with
      | some a => exact .failed _ _
      | none =>
        cases refused port with
        | true => exact .failed _ s.conflicts
        | false =>
          exact .record { port, owner, purpose, allocatedAt := now } hrange (find?_eq_none_iff.1 hfree)
    · rw [Bool.not_eq_true] at hrange
      rw [hrange]
      exact .failed _ s.conflicts
  | release port => exact .release port
  | assign port owner =>
    rw [start]
    cases hfind : s.find? port with
    | none => exact .failed _ s.conflicts
    | some a =>
      obtain rfl : a.port = port := by simpa using List.find?_some hfind
      exact .reassign a owner hfind

end Ports

/-! ## Sessions -/

/-- What happens to ports while calls run, each known by its number. -/
inductive PortEvent where
  | reserved (call : Nat) (port : UInt16)
  | returned (call : Nat) (port : UInt16)
  | released (port : UInt16)
  deriving DecidableEq

/-- A phase of a call at a moment: the first one of a new call, or the second one of the call of a number. -/
inductive PortPhase where
  | start (now : Instant) (call : PhasedCall)
  | finish (now : Instant) (number : Nat)

/-- The ports, and the calls that have done their first phase but not their second. -/
structure PortSession where
  ports : Ports
  /-- How many calls have begun; the next one has this number. -/
  begun : Nat := 0
  inFlight : List (Nat × PendingCall) := []
  log : List PortEvent := []

/-- What the first phase of the call of a number has made known. -/
def PendingCall.events (number : Nat) : PendingCall → List PortEvent
  | record a => [.reserved number a.port]
  | release port => [.released port]
  | reassign _ _ => []

/-- What is left to do about a port by some calls. -/
def pendingAt (inFlight : List (Nat × PendingCall)) (port : UInt16) : List PendingCall :=
  (inFlight.map (·.2)).filter (·.port == port)

namespace PortSession

/-- What is left to do about a port. -/
def pendingAt (s : PortSession) (port : UInt16) : List PendingCall := ProxyFleet.pendingAt s.inFlight port

/-- What the calls in flight do. -/
def kinds (s : PortSession) : List CallKind := s.inFlight.map (·.2.kind)

/-- A call has begun. -/
def enter (s : PortSession) : Except PortError PendingCall × Ports → PortSession
  | (.error _, ports) => { s with ports, begun := s.begun + 1 }
  | (.ok x, ports) =>
    { ports, begun := s.begun + 1, inFlight := s.inFlight ++ [(s.begun, x)], log := s.log ++ x.events s.begun }

/-- The call of a number has ended. -/
def leave (s : PortSession) (number : Nat) : Except PortError (Option UInt16) × Ports → PortSession
  | (answer, ports) =>
    { s with
      ports, inFlight := s.inFlight.eraseP (·.1 == number)
      log := s.log ++ match answer with
        | .ok (some port) => [.returned number port]
        | _ => [] }

/-- A phase; there is no second phase of a call that is not in flight. -/
def step (s : PortSession) : PortPhase → PortSession
  | .start now c => s.enter (s.ports.start now c)
  | .finish now number =>
    match s.inFlight.find? (·.1 == number) with
    | none => s
    | some (_, x) => s.leave number (s.ports.finish now x)

/-- Phases one after the other, with no call in flight before them. -/
def run (ports : Ports) (phases : List PortPhase) : PortSession := phases.foldl step { ports }

theorem run_concat (ports : Ports) (phases : List PortPhase) (phase : PortPhase) :
    run ports (phases ++ [phase]) = (run ports phases).step phase :=
  List.foldl_concat ..

end PortSession

/-! ## What is left to do about a port -/

theorem pendingAt_concat (inFlight : List (Nat × PendingCall)) (number : Nat) (x : PendingCall) (port : UInt16) :
    pendingAt (inFlight ++ [(number, x)]) port =
      if port = x.port then pendingAt inFlight port ++ [x] else pendingAt inFlight port := by
  rw [pendingAt, List.map_append, List.filter_append]
  split_ifs with hport
  · simp [pendingAt, hport]
  · simp [pendingAt, Ne.symm hport]

/-- A call that ends leaves to the others what is left to do about their ports. -/
theorem pendingAt_eraseP {inFlight : List (Nat × PendingCall)} {number n : Nat} {x : PendingCall}
    (h : inFlight.find? (·.1 == number) = some (n, x)) :
    (∀ port ≠ x.port, pendingAt (inFlight.eraseP (·.1 == number)) port = pendingAt inFlight port) ∧
    ∃ before after, pendingAt inFlight x.port = before ++ x :: after ∧
      pendingAt (inFlight.eraseP (·.1 == number)) x.port = before ++ after := by
  obtain ⟨hnumber, before, after, rfl, hbefore⟩ := List.find?_eq_some_iff_append.1 h
  have herase : (before ++ (n, x) :: after).eraseP (·.1 == number) = before ++ after := by
    rw [List.eraseP_append_right _ (by simpa using hbefore)]
    exact congrArg (before ++ ·) (List.eraseP_cons_of_pos hnumber)
  rw [herase]
  refine ⟨fun port hport => ?_, pendingAt before x.port, pendingAt after x.port, ?_, ?_⟩
  · simp [pendingAt, Ne.symm hport]
  · simp [pendingAt]
  · simp [pendingAt]

end ProxyFleet

import Mathlib.Data.List.Infix
import Mathlib.Data.Sym.Sym2
import ProxyFleet.Proofs.Ports.Phases

/-!
# Calls that overlap

Between the two phases of a call the held ports are ahead of the table, and a call that runs in between goes by
the held ports. This does no harm on different ports. On one port, a call that takes it must not overlap with one
that gives it back or passes it on, and two that pass it on must not overlap; all others may.

* `Compatible`, `PortSession.Within` : of the calls in flight on a port, any two are of kinds that may overlap;
* `Consistent` : what is held and what is recorded of a port, by what is left to do about it;
* `Traced` : a port that was reserved is held until it is given back;
* `PortSession.Tidy`, `Tidy.step`, `tidy_run` : both hold after every phase if no calls overlap that do harm;
* `PortSession.Safe`, `interleave_iff` : what is expected of calls that overlap, and which of them may;
* `overlap_unsafe` : schedules that are not safe.
-/

namespace ProxyFleet

set_option autoImplicit false

/-- Of some calls on a port, any two are of kinds that may overlap. -/
def Compatible (may : Set (Sym2 CallKind)) (pending : List PendingCall) : Prop :=
  pending.Pairwise fun x y => s(x.kind, y.kind) ∈ may

/-- The kinds of calls that may overlap exclude those that do harm. -/
structure Harmless (may : Set (Sym2 CallKind)) : Prop where
  take_release : s(.take, .release) ∉ may
  take_assign : s(.take, .assign) ∉ may
  assign_assign : s(.assign, .assign) ∉ may

/-! ## One port -/

/-- What is held and what is recorded of a port, by what is left to do about it. -/
inductive Consistent : List PendingCall → Option Holder → Option Holder → Prop where
  | quiet (holder : Option Holder) : Consistent [] holder holder
  /-- A port that is being taken is held, but not recorded yet. -/
  | taking (a : PortAllocation) : Consistent [.record a] (some a.holder) none
  /-- A port that is being given back is not held, whatever is recorded. -/
  | releasing {pending : List PendingCall} (recorded : Option Holder)
      (hrelease : ∃ x ∈ pending, x.kind = .release) (htake : ∀ x ∈ pending, x.kind ≠ .take) :
      Consistent pending none recorded
  /-- A port that is being passed on has its new owner among the held ports only, if it is held at all. -/
  | assigning (port : UInt16) (owner : Int) {held recorded : Option Holder}
      (hheld : held = recorded.map fun x => ⟨owner, x.purpose⟩) : Consistent [.reassign port owner] held recorded

theorem Compatible.may_last {may : Set (Sym2 CallKind)} {pending : List PendingCall} {x : PendingCall}
    (h : Compatible may (pending ++ [x])) : ∀ y ∈ pending, s(x.kind, y.kind) ∈ may := by
  intro y hy
  rw [Sym2.eq_swap]
  exact (List.pairwise_append.1 h).2.2 y hy x List.mem_cons_self

theorem eq_of_append_cons_eq_singleton {α : Type} {before after : List α} {x y : α}
    (h : before ++ x :: after = [y]) : x = y ∧ before ++ after = [] := by
  cases before with
  | nil => simpa using h
  | cons z before => simp at h

namespace Consistent

variable {may : Set (Sym2 CallKind)} {pending before after : List PendingCall} {held recorded : Option Holder}

theorem reserve (hmay : Harmless may) {a : PortAllocation} (h : Consistent pending none recorded)
    (hp : Compatible may (pending ++ [.record a])) :
    Consistent (pending ++ [.record a]) (some a.holder) recorded := by
  cases h with
  | quiet => exact .taking a
  | releasing _ hrelease =>
    obtain ⟨x, hx, hkind⟩ := hrelease
    exact absurd (hkind ▸ hp.may_last x hx) hmay.take_release
  | assigning port owner => exact absurd (hp.may_last _ List.mem_cons_self) hmay.take_assign

theorem drop (hmay : Harmless may) {port : UInt16} (hp : Compatible may (pending ++ [.release port]))
    (recorded : Option Holder) : Consistent (pending ++ [.release port]) none recorded := by
  refine .releasing recorded ⟨.release port, by simp, rfl⟩ fun x hx hkind => ?_
  rcases List.mem_append.1 hx with hx | hx
  · have hmem := hp.may_last x hx
    rw [hkind, Sym2.eq_swap] at hmem
    exact hmay.take_release hmem
  · obtain rfl := List.mem_singleton.1 hx
    cases hkind

theorem pass (hmay : Harmless may) {port : UInt16} {owner : Int} {x : Holder}
    (h : Consistent pending (some x) recorded) (hp : Compatible may (pending ++ [.reassign port owner])) :
    Consistent (pending ++ [.reassign port owner]) (some ⟨owner, x.purpose⟩) recorded := by
  cases h with
  | quiet => exact .assigning port owner rfl
  | taking a =>
    have hmem := hp.may_last _ List.mem_cons_self
    rw [Sym2.eq_swap] at hmem
    exact absurd hmem hmay.take_assign
  | assigning port' owner' => exact absurd (hp.may_last _ List.mem_cons_self) hmay.assign_assign

theorem of_record {a : PortAllocation} (h : Consistent (before ++ .record a :: after) held recorded) :
    before ++ after = [] ∧ held = some a.holder ∧ recorded = none := by
  generalize hpending : before ++ .record a :: after = pending at h
  cases h with
  | quiet => simp at hpending
  | taking b =>
    obtain ⟨heq, hnil⟩ := eq_of_append_cons_eq_singleton hpending
    cases heq
    exact ⟨hnil, rfl, rfl⟩
  | releasing _ _ htake => exact absurd rfl (htake (.record a) (by simp [← hpending]))
  | assigning port owner => cases (eq_of_append_cons_eq_singleton hpending).1

/-- A port that is neither held nor recorded, and that nobody is taking. -/
theorem of_untaken (hmay : Harmless may) (htake : ∀ x ∈ pending, x.kind ≠ .take) (hp : Compatible may pending) :
    Consistent pending none none := by
  by_cases hrelease : ∃ x ∈ pending, x.kind = .release
  · exact .releasing none hrelease htake
  · -- all that is left to do is to pass the port on, and that once at most
    have hassign : ∀ x ∈ pending, x.kind = .assign := by
      intro x hx
      cases hkind : x.kind with
      | take => exact absurd hkind (htake x hx)
      | release => exact absurd ⟨x, hx, hkind⟩ hrelease
      | assign => rfl
    match pending with
    | [] => exact .quiet none
    | [.reassign port owner] => exact .assigning port owner rfl
    | [.record a] => cases hassign _ List.mem_cons_self
    | [.release port] => cases hassign _ List.mem_cons_self
    | x :: y :: rest =>
      have hmem := List.rel_of_pairwise_cons hp (List.mem_cons_self (a := y))
      rw [hassign x (by simp), hassign y (by simp)] at hmem
      exact absurd hmem hmay.assign_assign

theorem release (hmay : Harmless may) {port : UInt16}
    (h : Consistent (before ++ .release port :: after) held recorded)
    (hp : Compatible may (before ++ .release port :: after)) : Consistent (before ++ after) held none := by
  have hsub : (before ++ after).Sublist (before ++ .release port :: after) :=
    (List.Sublist.refl before).append (List.sublist_cons_self _ after)
  generalize hpending : before ++ .release port :: after = pending at h hp hsub
  cases h with
  | quiet => simp at hpending
  | taking b => cases (eq_of_append_cons_eq_singleton hpending).1
  | assigning port' owner => cases (eq_of_append_cons_eq_singleton hpending).1
  | releasing _ _ htake => exact of_untaken hmay (fun x hx => htake x (hsub.subset hx)) (hp.sublist hsub)

theorem reassign {port : UInt16} {owner : Int}
    (h : Consistent (before ++ .reassign port owner :: after) held recorded) :
    Consistent (before ++ after) held (recorded.map fun x => ⟨owner, x.purpose⟩) := by
  have hsub : (before ++ after).Sublist (before ++ .reassign port owner :: after) :=
    (List.Sublist.refl before).append (List.sublist_cons_self _ after)
  generalize hpending : before ++ .reassign port owner :: after = pending at h hsub
  cases h with
  | quiet => simp at hpending
  | taking b => cases (eq_of_append_cons_eq_singleton hpending).1
  | assigning port' owner' hheld =>
    obtain ⟨heq, hnil⟩ := eq_of_append_cons_eq_singleton hpending
    cases heq
    rw [hnil, hheld]
    exact .quiet _
  | releasing _ hrelease htake =>
    obtain ⟨x, hx, hkind⟩ := hrelease
    refine .releasing _ ⟨x, ?_, hkind⟩ fun y hy => htake y (hsub.subset hy)
    rw [← hpending, List.mem_append, List.mem_cons] at hx
    rcases hx with hx | rfl | hx
    · exact List.mem_append_left _ hx
    · cases hkind
    · exact List.mem_append_right _ hx

end Consistent

/-! ## Reserved ports -/

/-- A port that was reserved is held until it is given back, so that it is not reserved again before. -/
structure Traced (log : List PortEvent) (holder? : UInt16 → Option Holder) : Prop where
  held : ∀ before after n p, log = before ++ .reserved n p :: after → .released p ∉ after → holder? p ≠ none
  apart : ∀ before after m n p, log = before ++ .reserved m p :: after → .reserved n p ∈ after → .released p ∈ after

namespace Traced

variable {log : List PortEvent} {holder? holder?' : UInt16 → Option Holder}

theorem nil : Traced [] holder? where
  held := by simp
  apart := by simp

theorem mono (h : Traced log holder?) (hkeep : ∀ p, holder? p ≠ none → holder?' p ≠ none) : Traced log holder?' where
  held before after n p hlog hafter := hkeep p (h.held before after n p hlog hafter)
  apart := h.apart

theorem concat (h : Traced log holder?) {e : PortEvent}
    (hkeep : ∀ p, e ≠ .released p → holder? p ≠ none → holder?' p ≠ none)
    (hnew : ∀ n p, e = .reserved n p → holder? p = none ∧ holder?' p ≠ none) :
    Traced (log ++ [e]) holder?' where
  held before after n p hlog hafter := by
    rcases List.eq_nil_or_concat after with rfl | ⟨after, e', rfl⟩
    · obtain ⟨-, he⟩ := List.append_inj' hlog rfl
      exact (hnew n p (List.singleton_inj.1 he)).2
    · rw [List.concat_eq_append, ← List.cons_append, ← List.append_assoc] at hlog
      obtain ⟨hbefore, he⟩ := List.append_inj' hlog rfl
      obtain rfl := List.singleton_inj.1 he
      rw [List.concat_eq_append, List.mem_append, not_or, List.mem_singleton] at hafter
      exact hkeep p (Ne.symm hafter.2) (h.held before after n p hbefore hafter.1)
  apart before after m n p hlog hmem := by
    rcases List.eq_nil_or_concat after with rfl | ⟨after, e', rfl⟩
    · cases hmem
    · rw [List.concat_eq_append] at hlog hmem ⊢
      rw [← List.cons_append, ← List.append_assoc] at hlog
      obtain ⟨hbefore, he⟩ := List.append_inj' hlog rfl
      obtain rfl := List.singleton_inj.1 he
      refine List.mem_append_left _ ?_
      rcases List.mem_append.1 hmem with hmem | hmem
      · exact h.apart before after m n p hbefore hmem
      · -- the port is free when it is reserved, so it was given back
        by_contra hafter
        exact h.held before after m p hbefore hafter (hnew n p (List.mem_singleton.1 hmem).symm).1

end Traced

/-! ## Sessions -/

namespace Ports

/-- The holder that the row of a port names, if the port belongs to the range. -/
def recorded? (s : Ports) (port : UInt16) : Option Holder :=
  if s.range.contains port = true then s.table.holder? port else none

variable {s : Ports}

theorem recorded?_table {table : PortTable} {port : UInt16} {x y : Option Holder}
    (htable : table.holder? = Function.update s.table.holder? port x)
    (hy : y = if s.range.contains port = true then x else none) :
    recorded? { s with table } = Function.update s.recorded? port y := by
  funext p
  show (if s.range.contains p = true then table.holder? p else none) = _
  rw [htable, Function.update_apply, Function.update_apply]
  by_cases hp : p = port
  · rw [if_pos hp, if_pos hp, hp, hy]
  · rw [if_neg hp, if_neg hp]
    rfl

theorem finish_record (hsound : s.table.Sound) (now : Instant) {a : PortAllocation}
    (hrange : s.range.contains a.port = true) (hfree : s.recorded? a.port = none) :
    s.finish now (.record a) =
      (.ok (some a.port), { s with table := s.table.insert (PortRow.ofAllocation a) }) ∧
    s.table.isHeld a.port = false := by
  rw [recorded?, if_pos hrange] at hfree
  have hheld : s.table.isHeld a.port = false := by rw [hsound.isHeld_eq, hfree]; rfl
  rw [finish, commit, PortTable.record_eq_ok hheld]
  exact ⟨rfl, hheld⟩

end Ports

theorem update_some_ne_none {f : UInt16 → Option Holder} {port p : UInt16} {x : Holder} (h : f p ≠ none) :
    Function.update f port (some x) p ≠ none := by
  rw [Function.update_apply]
  split_ifs
  · exact Option.some_ne_none x
  · exact h

namespace PortSession

/-- The calls in flight are all that the held ports are ahead of the table by. -/
structure Tidy (s : PortSession) : Prop where
  ascending : Ascending s.ports.held
  sound : s.ports.table.Sound
  outside : ∀ port, s.ports.range.contains port = false → s.ports.holder? port = none
  consistent : ∀ port, Consistent (s.pendingAt port) (s.ports.holder? port) (s.ports.recorded? port)
  traced : Traced s.log s.ports.holder?

namespace Tidy

variable {may : Set (Sym2 CallKind)} {s : PortSession}

theorem initial {ports : Ports} (h : ports.Agrees) : Tidy { ports } where
  ascending := h.ascending
  sound := h.sound
  outside port hport := by rw [h.agree, hport]; rfl
  consistent port := by
    have hagree : ports.holder? port = ports.recorded? port := h.agree port
    show Consistent [] (ports.holder? port) (ports.recorded? port)
    rw [hagree]
    exact .quiet _
  traced := .nil

theorem agrees (h : s.Tidy) (hquiet : s.inFlight = []) : s.ports.Agrees where
  ascending := h.ascending
  sound := h.sound
  agree port := by
    have hport := h.consistent port
    rw [pendingAt, hquiet] at hport
    show s.ports.holder? port = s.ports.recorded? port
    generalize s.ports.holder? port = held at hport
    generalize s.ports.recorded? port = recorded at hport
    cases hport with
    | quiet => rfl
    | releasing _ hrelease => simp [ProxyFleet.pendingAt] at hrelease

theorem contains_of_held (h : s.Tidy) {port : UInt16} {x : Holder} (hport : s.ports.holder? port = some x) :
    s.ports.range.contains port = true := by
  by_contra hout
  exact Option.some_ne_none x (hport.symm.trans (h.outside port (by simpa using hout)))

theorem consistent_enter (h : s.Tidy) {x : PendingCall} {ports : Ports} {held : Option Holder}
    (hheld : ports.holder? = Function.update s.ports.holder? x.port held)
    (hrecorded : ports.recorded? = s.ports.recorded?)
    (hx : Consistent (s.pendingAt x.port ++ [x]) held (s.ports.recorded? x.port)) (port : UInt16) :
    Consistent ((s.enter (.ok x, ports)).pendingAt port) (ports.holder? port) (ports.recorded? port) := by
  show Consistent (ProxyFleet.pendingAt (s.inFlight ++ [(s.begun, x)]) port) _ _
  rw [pendingAt_concat, hheld, hrecorded, Function.update_apply]
  split_ifs with hport
  · rw [hport]
    exact hx
  · exact h.consistent port

theorem outside_update (h : s.Tidy) {ports : Ports} {port : UInt16} {held : Option Holder}
    (hheld : ports.holder? = Function.update s.ports.holder? port held)
    (hport : held = none ∨ s.ports.range.contains port = true) (p : UInt16)
    (hp : s.ports.range.contains p = false) : ports.holder? p = none := by
  rw [hheld, Function.update_apply]
  split_ifs with heq
  · exact hport.resolve_right fun hin => Bool.false_ne_true (hp.symm.trans (heq ▸ hin))
  · exact h.outside p hp

theorem enter (h : s.Tidy) (hmay : Harmless may) {answer : Except PortError PendingCall × Ports}
    (hstarted : s.ports.Started answer) (hs : ∀ port, Compatible may ((s.enter answer).pendingAt port)) :
    (s.enter answer).Tidy := by
  have hpending : ∀ {x ports}, answer = (.ok x, ports) → Compatible may (s.pendingAt x.port ++ [x]) := by
    rintro x ports rfl
    have hx := hs x.port
    rwa [pendingAt, PortSession.enter, pendingAt_concat, if_pos rfl] at hx
  cases hstarted with
  | failed e conflicts => exact ⟨h.ascending, h.sound, h.outside, h.consistent, h.traced⟩
  | record a hrange hfree =>
    have hholder := s.ports.holder?_hold a
    have hport : Consistent (s.pendingAt a.port) none (s.ports.recorded? a.port) := hfree ▸ h.consistent a.port
    refine ⟨h.ascending.insert a, h.sound, h.outside_update hholder (.inr hrange),
      h.consistent_enter hholder rfl (hport.reserve hmay (hpending rfl)),
      h.traced.concat (fun p _ hp => hholder ▸ update_some_ne_none hp) fun n p he => ?_⟩
    cases he
    refine ⟨hfree, ?_⟩
    show (s.ports.hold a).holder? a.port ≠ none
    rw [hholder, Function.update_self]
    exact Option.some_ne_none _
  | release port =>
    have hholder := s.ports.holder?_drop port
    refine ⟨h.ascending.filter _, h.sound, h.outside_update hholder (.inl rfl),
      h.consistent_enter hholder rfl (.drop hmay (hpending rfl) _),
      h.traced.concat (fun p hne hp => ?_) fun n p he => by cases he⟩
    show (s.ports.drop port).holder? p ≠ none
    rw [hholder, Function.update_of_ne]
    · exact hp
    · rintro rfl
      exact hne rfl
  | reassign a owner hfind =>
    have hholder := s.ports.holder?_hold { a with owner }
    have hheld : s.ports.holder? a.port = some a.holder := by rw [Ports.holder?, hfind]; rfl
    have hport : Consistent (s.pendingAt a.port) (some a.holder) (s.ports.recorded? a.port) :=
      hheld ▸ h.consistent a.port
    refine ⟨h.ascending.insert _, h.sound, h.outside_update hholder (.inr (h.contains_of_held hheld)),
      h.consistent_enter hholder rfl (hport.pass hmay (hpending rfl)), ?_⟩
    show Traced (s.log ++ []) (s.ports.hold { a with owner }).holder?
    rw [List.append_nil]
    exact h.traced.mono fun p hp => hholder ▸ update_some_ne_none hp

theorem consistent_leave (h : s.Tidy) {number n : Nat} {x : PendingCall}
    (hfind : s.inFlight.find? (·.1 == number) = some (n, x)) {answer : Except PortError (Option UInt16)}
    {ports : Ports} {recorded : Option Holder} (hheld : ports.holder? = s.ports.holder?)
    (hrecorded : ports.recorded? = Function.update s.ports.recorded? x.port recorded)
    (hx : ∀ before after, s.pendingAt x.port = before ++ x :: after →
      Consistent (before ++ x :: after) (s.ports.holder? x.port) (s.ports.recorded? x.port) →
      Consistent (before ++ after) (s.ports.holder? x.port) recorded) (port : UInt16) :
    Consistent ((s.leave number (answer, ports)).pendingAt port) (ports.holder? port) (ports.recorded? port) := by
  obtain ⟨hothers, before, after, hbefore, hafter⟩ := pendingAt_eraseP hfind
  show Consistent (ProxyFleet.pendingAt (s.inFlight.eraseP (·.1 == number)) port) _ _
  rw [hheld, hrecorded, Function.update_apply]
  split_ifs with hport
  · have hconsistent := h.consistent x.port
    rw [pendingAt, hbefore] at hconsistent
    rw [hport, hafter]
    exact hx before after hbefore hconsistent
  · rw [hothers port hport]
    exact h.consistent port

theorem leave (h : s.Tidy) (hmay : Harmless may) (now : Instant) {number n : Nat} {x : PendingCall}
    (hfind : s.inFlight.find? (·.1 == number) = some (n, x)) (hs : Compatible may (s.pendingAt x.port)) :
    (s.leave number (s.ports.finish now x)).Tidy := by
  cases x with
  | record a =>
    obtain ⟨-, before, after, hbefore, -⟩ := pendingAt_eraseP hfind
    have hport : Consistent (before ++ .record a :: after) (s.ports.holder? a.port) (s.ports.recorded? a.port) :=
      hbefore ▸ h.consistent a.port
    obtain ⟨-, hheld, hfree⟩ := hport.of_record
    have hrange := h.contains_of_held hheld
    obtain ⟨hfinish, hunheld⟩ := Ports.finish_record h.sound now hrange hfree
    have hrecorded := Ports.recorded?_table (PortTable.holder?_insert hunheld) (if_pos hrange).symm
    rw [hfinish]
    refine ⟨h.ascending, h.sound.insert hunheld, h.outside,
      h.consistent_leave hfind rfl hrecorded fun before after _ hconsistent => ?_,
      h.traced.concat (fun _ _ hp => hp) fun _ _ he => by cases he⟩
    rw [hconsistent.of_record.1]
    show Consistent [] (s.ports.holder? a.port) (some a.holder)
    rw [hheld]
    exact .quiet _
  | release port =>
    have hrecorded := Ports.recorded?_table (PortTable.holder?_release s.ports.table port now) (ite_self none).symm
    refine ⟨h.ascending, h.sound.release port now, h.outside,
      h.consistent_leave hfind rfl hrecorded fun before after hsplit hconsistent => ?_, ?_⟩
    · exact hconsistent.release hmay (hsplit ▸ hs)
    · show Traced (s.log ++ []) s.ports.holder?
      rw [List.append_nil]
      exact h.traced
  | reassign port owner =>
    have hmap : (s.ports.recorded? port).map (fun x => (⟨owner, x.purpose⟩ : Holder)) =
        if s.ports.range.contains port = true then
          (s.ports.table.holder? port).map fun x => ⟨owner, x.purpose⟩ else none := by
      rw [Ports.recorded?]
      split_ifs
      · rfl
      · rfl
    have hrecorded := Ports.recorded?_table (PortTable.holder?_reassign s.ports.table port owner) hmap
    refine ⟨h.ascending, h.sound.reassign port owner, h.outside,
      h.consistent_leave hfind rfl hrecorded fun before after _ hconsistent => hconsistent.reassign, ?_⟩
    show Traced (s.log ++ []) s.ports.holder?
    rw [List.append_nil]
    exact h.traced

theorem step (h : s.Tidy) (hmay : Harmless may) {phase : PortPhase} (hs : ∀ port, Compatible may (s.pendingAt port))
    (hs' : ∀ port, Compatible may ((s.step phase).pendingAt port)) : (s.step phase).Tidy := by
  cases phase with
  | start now call => exact h.enter hmay (s.ports.started_start now call) hs'
  | finish now number =>
    rw [PortSession.step]
    cases hfind : s.inFlight.find? (·.1 == number) with
    | none => exact h
    | some e =>
      obtain ⟨n, x⟩ := e
      exact h.leave hmay now hfind (hs x.port)

end Tidy

/-! ## Schedules -/

/-- At every moment of a schedule, any two of the calls in flight on a port are of kinds that may overlap. -/
def Within (may : Set (Sym2 CallKind)) (ports : Ports) (phases : List PortPhase) : Prop :=
  ∀ before, before <+: phases → ∀ port, Compatible may ((run ports before).pendingAt port)

/-- No two calls have returned a port that was not given back since the first of them reserved it, and with no
call in flight the held ports are the recorded ones of the range. -/
structure Safe (s : PortSession) : Prop where
  apart : ∀ before after m n port, s.log = before ++ .reserved m port :: after → .reserved n port ∈ after →
    .returned m port ∈ s.log → .returned n port ∈ s.log → .released port ∈ after
  agrees : s.inFlight = [] → s.ports.Agrees

theorem Tidy.safe {s : PortSession} (h : s.Tidy) : s.Safe where
  apart before after m n port hlog hmem _ _ := h.traced.apart before after m n port hlog hmem
  agrees := h.agrees

theorem tidy_run {may : Set (Sym2 CallKind)} (hmay : Harmless may) {ports : Ports} (hports : ports.Agrees)
    {phases : List PortPhase} (hphases : Within may ports phases) : (run ports phases).Tidy := by
  induction phases using List.reverseRecOn with
  | nil => exact .initial hports
  | append_singleton phases phase ih =>
    have hprefix := List.prefix_append phases [phase]
    have htidy := ih fun before hbefore => hphases before (hbefore.trans hprefix)
    rw [run_concat]
    refine htidy.step hmay (hphases phases hprefix) ?_
    rw [← run_concat]
    exact hphases _ (List.prefix_refl _)

/-! ## Calls that do harm -/

/-- Two calls, of which the second one runs between the two phases of the first. -/
def overlap (c d : PhasedCall) : List PortPhase := [.start ⟨0⟩ c, .start ⟨0⟩ d, .finish ⟨0⟩ 1, .finish ⟨0⟩ 0]

theorem compatible_of_kinds {may : Set (Sym2 CallKind)} {s : PortSession}
    (h : s.kinds.Pairwise fun j k => s(j, k) ∈ may) (port : UInt16) : Compatible may (s.pendingAt port) := by
  have hall : (s.inFlight.map (·.2)).Pairwise fun x y => s(x.kind, y.kind) ∈ may := by
    rw [List.pairwise_map]
    rwa [kinds, List.pairwise_map] at h
  exact hall.filter _

theorem within_overlap {may : Set (Sym2 CallKind)} {ports : Ports} {c d : PhasedCall} {j k : CallKind}
    (hkinds : (overlap c d).inits.map (fun before => (run ports before).kinds) = [[], [j], [j, k], [j], []])
    (hjk : s(j, k) ∈ may) : Within may ports (overlap c d) := by
  intro before hbefore
  apply compatible_of_kinds
  have hmem : (run ports before).kinds ∈ (overlap c d).inits.map fun before => (run ports before).kinds :=
    List.mem_map_of_mem (List.mem_inits _ _ |>.2 hbefore)
  rw [hkinds] at hmem
  simp only [List.mem_cons, List.not_mem_nil, or_false] at hmem
  rcases hmem with hmem | hmem | hmem | hmem | hmem
  all_goals
    rw [hmem]
    simp [hjk]

/-- Calls of two kinds may not overlap if there are two such that leave a port held otherwise than recorded. -/
theorem notMem_of_disagree {may : Set (Sym2 CallKind)}
    (hsafe : ∀ ports phases, ports.Agrees → Within may ports phases → (run ports phases).Safe)
    {ports : Ports} (hports : ports.Agrees) (c d : PhasedCall) (port : UInt16) {j k : CallKind}
    (hkinds : (overlap c d).inits.map (fun before => (run ports before).kinds) = [[], [j], [j, k], [j], []])
    (hport : (run ports (overlap c d)).ports.holder? port ≠ (run ports (overlap c d)).ports.recorded? port) :
    s(j, k) ∉ may := by
  intro hjk
  have hend : (run ports (overlap c d)).kinds = [] := congrArg (·.getLast?.getD []) hkinds
  have hquiet : (run ports (overlap c d)).inFlight = [] := List.map_eq_nil_iff.1 hend
  exact hport (((hsafe ports _ hports (within_overlap hkinds hjk)).agrees hquiet).agree port)

/-- Eleven ports that nobody holds. -/
def freePorts : Ports := { range := { first := 10000, last := 10010 } }

/-- The same, with the first one held. -/
def heldPorts : Ports := freePorts.taken { port := 10000, owner := 9, purpose := .inbound, allocatedAt := ⟨0⟩ }

theorem agrees_freePorts : freePorts.Agrees := .initial _

theorem agrees_heldPorts : heldPorts.Agrees := agrees_freePorts.taken (by decide) (by decide)

/-- **Which calls may overlap.** Let `may` say of which kinds two calls may be that are in flight on one port.
Every schedule that keeps to it, from ports that agree with the table, is safe exactly if `may` has no call that
takes a port overlap with one that gives it back or passes it on, and no two that pass it on. -/
theorem interleave_iff (may : Set (Sym2 CallKind)) :
    (∀ ports phases, ports.Agrees → Within may ports phases → (run ports phases).Safe) ↔
      s(.take, .release) ∉ may ∧ s(.take, .assign) ∉ may ∧ s(.assign, .assign) ∉ may := by
  constructor
  · intro hsafe
    refine ⟨?_, ?_, ?_⟩
    · -- the port is recorded after it was given back
      exact notMem_of_disagree hsafe agrees_freePorts (.allocateAt (fun _ => false) 10000 1 .inbound)
        (.release 10000) 10000 (by decide +kernel) (by decide +kernel)
    · -- it is recorded with the owner that it was taken for, after it was passed on
      exact notMem_of_disagree hsafe agrees_freePorts (.allocateAt (fun _ => false) 10000 0 .inbound)
        (.assign 10000 1) 10000 (by decide +kernel) (by decide +kernel)
    · -- its row goes to the two owners in the other order
      exact notMem_of_disagree hsafe agrees_heldPorts (.assign 10000 1) (.assign 10000 2) 10000
        (by decide +kernel) (by decide +kernel)
  · rintro ⟨hrelease, hassign, htwice⟩ ports phases hports hphases
    exact (tidy_run ⟨hrelease, hassign, htwice⟩ hports hphases).safe

/-- The port is given back twice while others take it, so that one of them gives up the port of another. -/
def takenTwice : List PortPhase :=
  [.start ⟨0⟩ (.release 10000), .start ⟨0⟩ (.allocateAt (fun _ => false) 10000 1 .inbound),
   .start ⟨0⟩ (.release 10000), .start ⟨0⟩ (.allocateAt (fun _ => false) 10000 2 .inbound),
   .finish ⟨0⟩ 1, .start ⟨0⟩ (.allocateAt (fun _ => false) 10000 3 .inbound),
   .finish ⟨0⟩ 0, .finish ⟨0⟩ 3, .finish ⟨0⟩ 2, .finish ⟨0⟩ 4]

/-- The port is passed on twice, and its row goes to the two owners in the other order. -/
def passedTwice : List PortPhase := overlap (.assign 10000 1) (.assign 10000 2)

/-- Not all schedules are safe. Two calls that pass a port on can leave it with two owners; and a reservation that
is undone can be another call's, so that two calls return the port. -/
theorem overlap_unsafe :
    heldPorts.Agrees ∧
    (run heldPorts passedTwice).inFlight = [] ∧
    (run heldPorts passedTwice).ports.holder? 10000 = some ⟨2, .inbound⟩ ∧
    (run heldPorts passedTwice).ports.table.holder? 10000 = some ⟨1, .inbound⟩ ∧
    ¬(run heldPorts passedTwice).Safe ∧
    (run heldPorts takenTwice).log =
      [.released 10000, .reserved 1 10000, .released 10000, .reserved 3 10000, .reserved 4 10000,
        .returned 3 10000, .returned 4 10000] ∧
    ¬(run heldPorts takenTwice).Safe := by
  have hquiet : (run heldPorts passedTwice).inFlight = [] := by decide +kernel
  have hlog : (run heldPorts takenTwice).log =
      [.released 10000, .reserved 1 10000, .released 10000] ++ .reserved 3 10000 ::
        [.reserved 4 10000, .returned 3 10000, .returned 4 10000] := by decide +kernel
  refine ⟨agrees_heldPorts, hquiet, by decide +kernel, by decide +kernel, fun hsafe => ?_, hlog, fun hsafe => ?_⟩
  · exact absurd ((hsafe.agrees hquiet).agree 10000) (by decide +kernel)
  · have hreleased := hsafe.apart _ _ 3 4 10000 hlog (by decide) (hlog ▸ by decide) (hlog ▸ by decide)
    exact absurd hreleased (by decide)

end PortSession

end ProxyFleet

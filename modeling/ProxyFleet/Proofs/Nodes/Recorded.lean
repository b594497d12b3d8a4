import Mathlib.Data.List.Forall2
import ProxyFleet.Proofs.Nodes.Creation
import ProxyFleet.Proofs.Nodes.History

/-!
# Which attempts are in the history

An attempt is a call that changes or removes a node that is stored. What it comes to is written behind
the entries that are there, but for a change that is refused for the name or the host it asks for.

* `Attempt`, `Roster.attempt?` : what there is to tell of a call;
* `HistoryRow.Tells`, `Roster.Records` : an entry that tells it, and a history that gains just that one;
* `Roster.call_recorded_iff` : which attempts are recorded;
* `Roster.run_recorded_iff` : in which runs all of them are, in their order.
-/

namespace ProxyFleet

set_option autoImplicit false

/-- An attempt on a stored node. -/
structure Attempt where
  id : Int
  action : NodeAction
  /-- The node before it. -/
  old : Node
  /-- What was answered, if it failed. -/
  error? : Option NodeError

/-- The entry tells of the attempt: what was to be done to which node, how this was before, and whether
and why it failed. -/
structure HistoryRow.Tells (entry : HistoryRow) (a : Attempt) : Prop where
  node : entry.node = a.id
  action : entry.action = a.action.name
  before : entry.oldConfig = some a.old.snapshot
  success : entry.success = a.error?.isNone
  error : entry.error = a.error?.map NodeError.message

/-- The error that is answered, if it is one. -/
def NodeError.ofAnswer? {α : Type} : Except NodeError α → Option NodeError
  | .ok _ => none
  | .error e => some e

namespace Roster

variable {s : Roster} {now : Instant} {id : Int}

/-- The attempt that a call makes, if it is one to change or to remove a node that is stored. -/
def attempt? (s : Roster) (now : Instant) : RosterCall → Option Attempt
  | .update refused id change => (s.find id now).toOption.map fun old =>
      { id, action := .update, old, error? := NodeError.ofAnswer? (s.update refused id change now).1 }
  | .delete id => (s.find id now).toOption.map fun old =>
      { id, action := .delete, old, error? := NodeError.ofAnswer? (s.delete id now).1 }
  | .create _ _ | .reopen _ _ | .ports _ => none

/-- From one state to the next the history gains one entry, which tells of the attempt, behind all others. -/
def Records (s s' : Roster) (a : Attempt) : Prop :=
  ∃ entry : HistoryRow, entry.Tells a ∧ s'.history.rows = s.history.rows ++ [(s.history.nextId, entry)]

/-- What a change asks for can be the name and the host of a node. -/
def Named (s : Roster) (now : Instant) : RosterCall → Prop
  | .update _ id change => ∀ old, s.find id now = .ok old →
      checkNames (change.apply old).name (change.apply old).host = .ok ()
  | .create _ _ | .delete _ | .reopen _ _ | .ports _ => True

theorem records_record {s' : Roster} (h : s'.history = s.history) (a : Attempt) (new : Option String) :
    s.Records (s'.record a.id a.action (some a.old.snapshot) new a.error? now) a := by
  refine ⟨⟨a.id, a.action.name, some a.old.snapshot, new, (a.error?.map (·.message)).isNone,
    a.error?.map (·.message), now.stamp⟩, ⟨rfl, rfl, rfl, Option.isNone_map, rfl⟩, ?_⟩
  rw [record, HistoryTable.append, h]
  rfl

theorem not_records_self (s : Roster) (a : Attempt) : ¬s.Records s a := by
  rintro ⟨entry, -, hrows⟩
  exact absurd hrows (by simp)

/-! ## One call -/

theorem Revises.recorded {old : Node} (find : s.find id now = .ok old) {c : NodeChange}
    {result : Except NodeError Node × Roster} (h : Revises s id c now result) :
    checkNames (c.apply old).name (c.apply old).host = .ok () ∧
      s.Records result.2 { id, action := .update, old, error? := NodeError.ofAnswer? result.1 } ∨
    checkNames (c.apply old).name (c.apply old).host ≠ .ok () ∧ result.2 = s := by
  cases h with
  | refused e why =>
    obtain hmissing | ⟨old', fault, find', names, rfl⟩ := why
    · cases find.symm.trans hmissing
    obtain rfl : old = old' := Except.ok.inj (find.symm.trans find')
    exact .inr ⟨fun hnames => (nomatch names.symm.trans hnames), rfl⟩
  | failed e old' find' new ports names =>
    obtain rfl : old = old' := Except.ok.inj (find.symm.trans find')
    exact .inl ⟨names, records_record rfl ⟨id, .update, old, some e⟩ new⟩
  | revised n old' find' names params changed valid ports =>
    obtain rfl : old = old' := Except.ok.inj (find.symm.trans find')
    exact .inl ⟨names, records_record rfl ⟨id, .update, old, none⟩ (some n.snapshot)⟩

theorem Removes.recorded {old : Node} (find : s.find id now = .ok old)
    {result : Except NodeError (List UInt16) × Roster} (h : Removes s id now result) :
    s.Records result.2 { id, action := .delete, old, error? := NodeError.ofAnswer? result.1 } := by
  cases h with
  | refused e missing => cases find.symm.trans missing
  | removed released old' find' ports =>
    obtain rfl : old = old' := Except.ok.inj (find.symm.trans find')
    exact records_record rfl ⟨id, .delete, old, none⟩ none

/-- An attempt is recorded, or it asks for what cannot be the name or the host and nothing is changed. -/
theorem attempt_cases {c : RosterCall} {a : Attempt} (h : s.attempt? now c = some a) :
    s.Named now c ∧ s.Records (s.call now c) a ∨ ¬s.Named now c ∧ s.call now c = s := by
  cases c with
  | create | reopen | ports => cases h
  | update refused id change =>
    cases hfind : s.find id now with
    | error e =>
      rw [attempt?, hfind] at h
      cases h
    | ok old =>
      rw [attempt?, hfind] at h
      cases h
      have hnamed : s.Named now (.update refused id change) ↔
          checkNames (change.apply old).name (change.apply old).host = .ok () :=
        ⟨fun hnamed => hnamed old hfind, fun names old' find' => Except.ok.inj (hfind.symm.trans find') ▸ names⟩
      rw [hnamed]
      exact (update_revises s refused id change now).recorded hfind
  | delete id =>
    cases hfind : s.find id now with
    | error e =>
      rw [attempt?, hfind] at h
      cases h
    | ok old =>
      rw [attempt?, hfind] at h
      cases h
      exact .inl ⟨trivial, (delete_removes s id now).recorded hfind⟩

/-- **Which attempts are recorded.** Of an attempt on a stored node there is exactly one entry more, behind
those there were, which says what was to be done, how the node was before, and what the error was if the
answer is one: unless it is a change to a name or a host that no node can have, and that leaves no trace. -/
theorem call_recorded_iff (s : Roster) (now : Instant) (c : RosterCall) (a : Attempt) (h : s.attempt? now c = some a) :
    (s.Records (s.call now c) a ↔ s.Named now c) ∧ (¬s.Named now c → s.call now c = s) := by
  rcases attempt_cases h with ⟨hnamed, hrecords⟩ | ⟨hnamed, hsame⟩
  · exact ⟨iff_of_true hrecords hnamed, fun hnot => absurd hnamed hnot⟩
  · rw [hsame]
    exact ⟨iff_of_false (not_records_self s a) hnamed, fun _ => rfl⟩

/-- Another name and another host for the node that was added. -/
def sampleRenamed : RosterCall := .update (fun _ => false) 1 { name := some "b", host := some "127.0.0.2" }

theorem call_recorded_iff_sampleRenamed :
    let s := (empty {} sampleRange).run sampleAdded
    ∃ a, s.attempt? ⟨0⟩ sampleRenamed = some a ∧ s.Named ⟨0⟩ sampleRenamed ∧ s.Records (s.call ⟨0⟩ sampleRenamed) a := by
  have hsome : (((empty {} sampleRange).run sampleAdded).attempt? ⟨0⟩ sampleRenamed).isSome = true := by decide +kernel
  have hnamed : ((empty {} sampleRange).run sampleAdded).Named ⟨0⟩ sampleRenamed := by
    intro old _
    have hnames : checkNames "b" "127.0.0.2" = .ok () := checkNames_eq_ok_iff.2 (by decide +kernel)
    exact hnames
  obtain ⟨a, ha⟩ := Option.isSome_iff_exists.1 hsome
  exact ⟨a, ha, hnamed, (call_recorded_iff _ ⟨0⟩ sampleRenamed a ha).1.2 hnamed⟩

/-- An empty name for the node that was added. -/
def sampleUnnamed : RosterCall := .update (fun _ => false) 1 { name := some "" }

theorem call_unnamed_unrecorded :
    let s := (empty {} sampleRange).run sampleAdded
    ∃ a, s.attempt? ⟨0⟩ sampleUnnamed = some a ∧
      a.error?.map NodeError.message = some "invalid node: name must not be empty" ∧
      (s.call ⟨0⟩ sampleUnnamed).history.rows.length = s.history.rows.length ∧
      ¬s.Records (s.call ⟨0⟩ sampleUnnamed) a := by
  have htold : (((empty {} sampleRange).run sampleAdded).attempt? ⟨0⟩ sampleUnnamed).map
      (·.error?.map NodeError.message) = some (some "invalid node: name must not be empty") := by decide +kernel
  have hlength : (((empty {} sampleRange).run sampleAdded).call ⟨0⟩ sampleUnnamed).history.rows.length =
      ((empty {} sampleRange).run sampleAdded).history.rows.length := by decide +kernel
  obtain ⟨a, ha, herror⟩ := Option.map_eq_some_iff.1 htold
  refine ⟨a, ha, herror, hlength, ?_⟩
  rintro ⟨entry, -, hrows⟩
  simp [hrows] at hlength

/-! ## Runs -/

/-- The attempts of a run, in their order. -/
def attempts (s : Roster) : List (Instant × RosterCall) → List Attempt
  | [] => []
  | c :: calls => (s.attempt? c.1 c.2).toList ++ (s.call c.1 c.2).attempts calls

/-- Every change in a run asks for what can be the name and the host of a node. -/
def AllNamed (s : Roster) : List (Instant × RosterCall) → Prop
  | [] => True
  | c :: calls => s.Named c.1 c.2 ∧ (s.call c.1 c.2).AllNamed calls

/-- What the history says of changes and removals, oldest first. -/
def changes (s : Roster) : List HistoryRow :=
  (s.history.rows.map (·.2)).filter (·.action != NodeAction.create.name)

theorem changes_record_create (s : Roster) (id : Int) (old new : Option String) (error : Option NodeError)
    (now : Instant) : (s.record id .create old new error now).changes = s.changes := by
  simp [changes, record, HistoryTable.append]

theorem Records.changes {s' : Roster} {a : Attempt} (h : s.Records s' a) (haction : a.action ≠ .create) :
    ∃ entry : HistoryRow, entry.Tells a ∧ s'.changes = s.changes ++ [entry] := by
  obtain ⟨entry, htells, hrows⟩ := h
  have hname : entry.action ≠ NodeAction.create.name := by
    rw [htells.action]
    generalize a.action = action at haction
    revert haction
    cases action with
    | _ => decide
  exact ⟨entry, htells, by simp [Roster.changes, hrows, hname]⟩

theorem attempt?_action {c : RosterCall} {a : Attempt} (h : s.attempt? now c = some a) : a.action ≠ .create := by
  cases c with
  | create | reopen | ports => cases h
  | update =>
    obtain ⟨old, -, rfl⟩ := Option.map_eq_some_iff.1 h
    exact nofun
  | delete =>
    obtain ⟨old, -, rfl⟩ := Option.map_eq_some_iff.1 h
    exact nofun

theorem changes_of_no_attempt {c : RosterCall} (h : s.attempt? now c = none) :
    s.Named now c ∧ (s.call now c).changes = s.changes := by
  cases c with
  | create refused r =>
    have henrolls := create_enrolls s refused r now
    rw [call]
    generalize s.create refused r now = result at henrolls
    cases henrolls with
    | refused => exact ⟨trivial, rfl⟩
    | portless | undone | enrolled => exact ⟨trivial, changes_record_create _ _ _ _ _ _⟩
  | update refused id change =>
    have hmissing : ∀ old, s.find id now ≠ .ok old := by
      intro old hfind
      rw [attempt?, hfind] at h
      cases h
    have hrevises := update_revises s refused id change now
    rw [call]
    generalize s.update refused id change now = result at hrevises
    cases hrevises with
    | refused => exact ⟨fun old hfind => absurd hfind (hmissing old), rfl⟩
    | failed e old find => exact absurd find (hmissing old)
    | revised n old find => exact absurd find (hmissing old)
  | delete id =>
    have hremoves := delete_removes s id now
    rw [call]
    rw [attempt?] at h
    generalize s.delete id now = result at hremoves h
    cases hremoves with
    | refused => exact ⟨trivial, rfl⟩
    | removed released old find =>
      rw [find] at h
      cases h
  | reopen settings range => exact ⟨trivial, rfl⟩
  | ports c => exact ⟨trivial, rfl⟩

/-- What the history says of changes and removals after a call: one entry more for an attempt, but for one
that asks for what cannot be the name or the host. -/
theorem changes_call (s : Roster) (now : Instant) (c : RosterCall) :
    ∃ entries, (s.call now c).changes = s.changes ++ entries ∧
      (s.Named now c ∧ List.Forall₂ HistoryRow.Tells entries (s.attempt? now c).toList ∨
        ¬s.Named now c ∧ entries.length < (s.attempt? now c).toList.length) := by
  cases ha : s.attempt? now c with
  | none =>
    obtain ⟨hnamed, hchanges⟩ := changes_of_no_attempt ha
    exact ⟨[], by rw [hchanges, List.append_nil], .inl ⟨hnamed, .nil⟩⟩
  | some a =>
    rcases attempt_cases ha with ⟨hnamed, hrecords⟩ | ⟨hnamed, hsame⟩
    · obtain ⟨entry, htells, hchanges⟩ := hrecords.changes (attempt?_action ha)
      exact ⟨[entry], hchanges, .inl ⟨hnamed, .cons htells .nil⟩⟩
    · exact ⟨[], by rw [hsame, List.append_nil], .inr ⟨hnamed, Nat.zero_lt_one⟩⟩

theorem changes_run (s : Roster) (calls : List (Instant × RosterCall)) :
    ∃ entries, (s.run calls).changes = s.changes ++ entries ∧
      (s.AllNamed calls ∧ List.Forall₂ HistoryRow.Tells entries (s.attempts calls) ∨
        ¬s.AllNamed calls ∧ entries.length < (s.attempts calls).length) := by
  induction calls generalizing s with
  | nil => exact ⟨[], (List.append_nil _).symm, .inl ⟨trivial, .nil⟩⟩
  | cons c calls ih =>
    obtain ⟨first, hfirst, hcall⟩ := changes_call s c.1 c.2
    obtain ⟨rest, hrest, hrun⟩ := ih (s.call c.1 c.2)
    refine ⟨first ++ rest, ?_, ?_⟩
    · rw [← List.append_assoc, ← hfirst, ← hrest]
      rfl
    simp only [AllNamed, attempts, List.length_append]
    rcases hcall with ⟨hnamed, hcall⟩ | ⟨hnamed, hcall⟩
    · have hlength := hcall.length_eq
      rcases hrun with ⟨hall, hrun⟩ | ⟨hall, hrun⟩
      · exact .inl ⟨⟨hnamed, hall⟩, List.rel_append hcall hrun⟩
      · exact .inr ⟨fun h => hall h.2, by omega⟩
    · have hle : rest.length ≤ ((s.call c.1 c.2).attempts calls).length := by
        rcases hrun with ⟨-, hrun⟩ | ⟨-, hrun⟩
        · exact hrun.length_eq.le
        · exact hrun.le
      exact .inr ⟨fun h => hnamed h.1, by omega⟩

/-- **In which runs all attempts are recorded.** The history of a run tells, behind what it told before, of
each attempt to change or to remove a node in its order, and of nothing else of the kind, exactly if no
change asks for a name or a host that no node can have. -/
theorem run_recorded_iff (s : Roster) (calls : List (Instant × RosterCall)) :
    (∃ entries, List.Forall₂ HistoryRow.Tells entries (s.attempts calls) ∧
      (s.run calls).changes = s.changes ++ entries) ↔ s.AllNamed calls := by
  obtain ⟨entries, hchanges, h⟩ := changes_run s calls
  constructor
  · rintro ⟨entries', htell, hchanges'⟩
    obtain rfl : entries = entries' := List.append_cancel_left (hchanges.symm.trans hchanges')
    rcases h with ⟨hall, -⟩ | ⟨-, hfewer⟩
    · exact hall
    · exact absurd htell.length_eq hfewer.ne
  · intro hall
    rcases h with ⟨-, htell⟩ | ⟨hnot, -⟩
    · exact ⟨entries, htell, hchanges⟩
    · exact absurd hall hnot

end Roster

end ProxyFleet

import ProxyFleet.Nodes.Roster
import ProxyFleet.Proofs.Ports.Sweep

/-!
# Moving a node to another port

A move gives one port back and takes another, and takes the first one again where the other is not
to be had. What that does to the records is stated whoever holds the two ports.

* `Holder.node` : a node, as the holder of its port;
* `Ports.Admits` : a port that can be taken once nobody holds it;
* `Ports.SameHolders`, `Ports.KeepsOthers` : the holders are as before, or all but those of one node;
* `Moves` : what a move can come to; `movePort_moves` says that it comes to nothing else;
* `Moves.back` : a move that was done and then undone.
-/

namespace ProxyFleet

set_option autoImplicit false

/-- A node, as the holder of its port. -/
def Holder.node (id : Int) : Holder := ⟨id, .inbound⟩

theorem Holder.node_inj {i j : Int} (h : node i = node j) : i = j := congrArg owner h

namespace Ports

variable {s s' : Ports} {refused : UInt16 → Bool}

/-- A port that can be taken once nobody holds it. -/
def Admits (s : Ports) (refused : UInt16 → Bool) (p : UInt16) : Prop :=
  s.range.contains p = true ∧ refused p = false

instance (s : Ports) (refused : UInt16 → Bool) (p : UInt16) : Decidable (s.Admits refused p) :=
  inferInstanceAs (Decidable (_ ∧ _))

/-- Every port is held, and recorded as held, by whom it was before. -/
def SameHolders (s s' : Ports) : Prop :=
  (∀ p, s'.holder? p = s.holder? p) ∧ ∀ p x, s'.table.Records p x ↔ s.table.Records p x

/-- Ports that another owner holds, or is recorded as holding, are still that owner's. -/
def KeepsOthers (s s' : Ports) (owner : Int) : Prop :=
  ∀ p x, x.owner ≠ owner →
    (s.holder? p = some x → s'.holder? p = some x) ∧ (s.table.Records p x → s'.table.Records p x)

theorem free_iff {p : UInt16} : s.Free refused p ↔ s.Admits refused p ∧ s.holder? p = none := by
  rw [Free, Admits, and_right_comm, and_assoc]

namespace Agrees

/-- Where held and recorded ports agree, the records say it all. -/
theorem sameHolders_iff (h : s.Agrees) (h' : s'.Agrees) (hr : s'.range = s.range) :
    s.SameHolders s' ↔ ∀ p, s'.table.holder? p = s.table.holder? p := by
  simp only [SameHolders, h.sound.records_iff, h'.sound.records_iff]
  constructor
  · rintro ⟨-, hrec⟩ p
    exact Option.ext fun x => hrec p x
  · intro hp
    refine ⟨fun p => ?_, fun p x => by rw [hp]⟩
    rw [h'.agree, h.agree, hr, hp]

theorem keepsOthers_iff (h : s.Agrees) (h' : s'.Agrees) (hr : s'.range = s.range) (owner : Int) :
    s.KeepsOthers s' owner ↔
      ∀ p x, x.owner ≠ owner → s.table.holder? p = some x → s'.table.holder? p = some x := by
  simp only [KeepsOthers, h.sound.records_iff, h'.sound.records_iff]
  constructor
  · intro hk p x hx
    exact (hk p x hx).2
  · intro hk p x hx
    refine ⟨fun hp => ?_, hk p x hx⟩
    have hc := h.contains_of_held hp
    rw [h'.agree, hr, if_pos hc]
    exact hk p x hx (h.recorded_of_held hp)

/-- Whatever comes of it, taking a port concerns that port only, and only if it is free. -/
theorem allocateAt_table (h : s.Agrees) (refused : UInt16 → Bool) (p : UInt16) (owner : Int)
    (purpose : PortPurpose) (now : Instant) :
    let s' := (s.allocateAt refused p owner purpose now).2
    s'.Agrees ∧ s'.range = s.range ∧ s'.table.holder? =
      if s.Free refused p then Function.update s.table.holder? p (some ⟨owner, purpose⟩)
      else s.table.holder? := by
  by_cases hf : s.Free refused p
  · rw [h.allocateAt_of_free hf, if_pos hf]
    exact ⟨h.taken hf.1 hf.2.1, rfl, h.table_holder?_taken hf.1 hf.2.1⟩
  · obtain ⟨e, n, heq, -⟩ := allocateAt_of_not_free hf owner purpose now
    rw [heq, if_neg hf]
    exact ⟨h.conflicts n, rfl, rfl⟩

theorem free_release_of_ne {p q : UInt16} (hq : q ≠ p) (now : Instant) :
    (s.release p now).2.Free refused q ↔ s.Free refused q := by
  rw [Free, holder?_release, Function.update_of_ne hq, range_release, Free]

end Agrees

end Ports

/-! ## What a move comes to -/

/-- The records after a move that was done. -/
def movedHolders (s : Ports) (id : Int) (old wanted : UInt16) : UInt16 → Option Holder :=
  Function.update (Function.update s.table.holder? old none) wanted (some (.node id))

/-- The records after a move that was not: the old port is the node's, if it can be taken at all. -/
def stayedHolders (s : Ports) (refused : UInt16 → Bool) (id : Int) (old : UInt16) :
    UInt16 → Option Holder :=
  Function.update s.table.holder? old (if s.Admits refused old then some (.node id) else none)

/-- What a move of a node can come to: an answer, and the ports after it. -/
inductive Moves (s : Ports) (refused : UInt16 → Bool) (id : Int) (old wanted : UInt16) :
    Except PortError Unit × Ports → Prop where
  | done (s' : Ports) (free : s.Free refused wanted) (agrees : s'.Agrees) (range : s'.range = s.range)
    (table : s'.table.holder? = movedHolders s id old wanted) : Moves s refused id old wanted (.ok (), s')
  | stayed (e : PortError) (s' : Ports) (taken : ¬s.Free refused wanted) (agrees : s'.Agrees)
    (range : s'.range = s.range) (table : s'.table.holder? = stayedHolders s refused id old) :
    Moves s refused id old wanted (.error e, s')

/-- A move comes to one of these, whoever holds the two ports. -/
theorem movePort_moves {s : Ports} (h : s.Agrees) (refused : UInt16 → Bool) (id : Int)
    {old wanted : UInt16} (hne : wanted ≠ old) (now : Instant) :
    Moves s refused id old wanted (Roster.movePort s refused id old wanted now) := by
  have hrel := h.release old now
  have htable := Ports.table_holder?_release s old now
  by_cases hf : s.Free refused wanted
  · have hf' := (Ports.Agrees.free_release_of_ne hne now).2 hf
    have hmove : Roster.movePort s refused id old wanted now =
        (.ok (), (s.release old now).2.taken ⟨wanted, id, .inbound, .allocated, now, none⟩) := by
      rw [Roster.movePort]
      simp only [hrel.allocateAt_of_free hf']
    rw [hmove]
    refine .done _ hf (hrel.taken hf'.1 hf'.2.1) rfl ?_
    rw [hrel.table_holder?_taken hf'.1 hf'.2.1, htable]
    rfl
  · have hf' := mt (Ports.Agrees.free_release_of_ne hne now).1 hf
    obtain ⟨e, n, heq, -⟩ := Ports.Agrees.allocateAt_of_not_free hf' id .inbound now
    have hmove : Roster.movePort s refused id old wanted now =
        (.error e, (Ports.allocateAt { (s.release old now).2 with conflicts := n } refused old id
          .inbound now).2) := by
      rw [Roster.movePort]
      simp only [heq]
    obtain ⟨hagrees, hrange, hholder⟩ := (hrel.conflicts n).allocateAt_table refused old id .inbound now
    rw [hmove]
    refine .stayed e _ hf hagrees hrange ?_
    have hfree : Ports.Free { (s.release old now).2 with conflicts := n } refused old ↔
        s.Admits refused old := by
      show (s.release old now).2.Free refused old ↔ _
      exact Ports.Agrees.free_release_self now
    rw [hholder, stayedHolders]
    simp only [hfree, htable]
    split_ifs
    · exact Function.update_idem ..
    · rfl

/-- The records after a move that came to nothing, be it that the other port was not to be had, or
that it was given back again. -/
def failedHolders (s : Ports) (refused : UInt16 → Bool) (id : Int) (old wanted : UInt16) :
    UInt16 → Option Holder :=
  if s.Free refused wanted ∧ ¬s.Admits refused old then movedHolders s id old wanted
  else stayedHolders s refused id old

theorem failedHolders_of_not_free {s : Ports} {refused : UInt16 → Bool} {id : Int} {old wanted : UInt16}
    (h : ¬s.Free refused wanted) : failedHolders s refused id old wanted = stayedHolders s refused id old := by
  rw [failedHolders, if_neg fun hf => h hf.1]

theorem movedHolders_self {s : Ports} {id : Int} {p : UInt16} (h : s.table.holder? p = some (.node id)) :
    movedHolders s id p p = s.table.holder? := by
  rw [movedHolders, Function.update_idem, ← h, Function.update_eq_self]

/-- A node that can have its port again loses nothing by a move that comes to nothing. -/
theorem failedHolders_of_admits {s : Ports} {refused : UInt16 → Bool} {id : Int} {old : UInt16}
    (h : s.table.holder? old = some (.node id)) (ha : s.Admits refused old) (wanted : UInt16) :
    failedHolders s refused id old wanted = s.table.holder? := by
  rw [failedHolders, if_neg fun hf => hf.2 ha, stayedHolders, if_pos ha, ← h, Function.update_eq_self]

/-- Moving back after a move that was done. -/
theorem Moves.back {s s₁ : Ports} {refused : UInt16 → Bool} {id : Int} {old wanted : UInt16}
    {r : Except PortError Unit × Ports} (h : s.Agrees) (hne : wanted ≠ old) (hf : s.Free refused wanted)
    (h₁ : s₁.Agrees) (hrange : s₁.range = s.range) (htable : s₁.table.holder? = movedHolders s id old wanted)
    (hback : Moves s₁ refused id wanted old r) :
    r.2.Agrees ∧ r.2.range = s.range ∧ r.2.table.holder? = failedHolders s refused id old wanted := by
  have hwanted : s.table.holder? wanted = none := h.unrecorded hf.1 hf.2.1
  have hadmits : ∀ p, s₁.Admits refused p ↔ s.Admits refused p := fun p => by
    rw [Ports.Admits, Ports.Admits, hrange]
  have hold : s₁.holder? old = none := by
    rw [h₁.agree, htable, movedHolders, Function.update_of_ne hne.symm, Function.update_self, ite_self]
  cases hback with
  | done s₂ hfree h₂ hrange₂ htable₂ =>
    have hold := (hadmits old).1 (Ports.free_iff.1 hfree).1
    refine ⟨h₂, hrange₂.trans hrange, ?_⟩
    rw [htable₂, failedHolders, if_neg fun hn => hn.2 hold, stayedHolders, if_pos hold, movedHolders, htable,
      movedHolders, Function.update_idem, ← hwanted]
    funext p
    simp only [Function.update_apply]
    split_ifs with hp hw
    · rfl
    · rw [hw]
    · rfl
  | stayed e s₂ htaken h₂ hrange₂ htable₂ =>
    have hno : ¬s.Admits refused old := fun ha =>
      htaken (Ports.free_iff.2 ⟨(hadmits old).2 ha, hold⟩)
    refine ⟨h₂, hrange₂.trans hrange, ?_⟩
    rw [htable₂, failedHolders, if_pos ⟨hf, hno⟩, stayedHolders,
      if_pos ((hadmits wanted).2 (Ports.free_iff.1 hf).1), htable, movedHolders, Function.update_idem]

end ProxyFleet

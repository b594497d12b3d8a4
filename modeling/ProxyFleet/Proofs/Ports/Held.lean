import Mathlib.Logic.Function.Basic
import Mathlib.Tactic.SplitIfs
import ProxyFleet.Ports.Allocator
import ProxyFleet.Proofs.Store.Table

/-!
# The ports that are held, as a map

The list of held ports is read as a map from ports to holders: what follows states the effect of
each change on `Ports.holder?`, so that the list itself is opened here and nowhere else.

* `Holder`, `Ports.holder?` : who holds a port, and for what;
* `holder?_hold`, `holder?_drop` : a port that is reserved and one that is dropped;
* `Ascending` : the ports of the list increase, so that each is held once (`Ascending.mem_ofOwner`);
* `find?_foldl_insert` : many ports that are reserved one after the other.
-/

namespace ProxyFleet

set_option autoImplicit false

/-- Who holds a port, and for what. -/
structure Holder where
  owner : Int
  purpose : PortPurpose
  deriving DecidableEq

/-- The holder that an allocation names. -/
def PortAllocation.holder (a : PortAllocation) : Holder := ⟨a.owner, a.purpose⟩

/-- The holder of a port, if it is held. -/
def Ports.holder? (s : Ports) (port : UInt16) : Option Holder := (s.find? port).map (·.holder)

/-! ## Reserving and dropping -/

theorem find?_insertAllocation (a : PortAllocation) (p : UInt16) (l : List PortAllocation) :
    (insertAllocation a l).find? (·.port == p) =
      if p = a.port then some a else l.find? (·.port == p) := by
  by_cases hp : p = a.port
  · subst hp
    rw [if_pos rfl]
    induction l with
    | nil => simp [insertAllocation]
    | cons b rest ih =>
      unfold insertAllocation
      split_ifs with hab hba
      · simp
      · have hne : b.port ≠ a.port := fun h => UInt16.lt_irrefl _ (h ▸ hba)
        simpa [List.find?_cons, hne] using ih
      · simp
  · rw [if_neg hp]
    induction l with
    | nil => simp [insertAllocation, Ne.symm hp]
    | cons b rest ih =>
      unfold insertAllocation
      split_ifs with hab hba
      · simp [List.find?_cons, Ne.symm hp]
      · rw [List.find?_cons, ih, List.find?_cons]
      · -- The allocation takes the place of one of its own port, which is not the port looked for.
        have heq : a.port = b.port := UInt16.le_antisymm (UInt16.not_lt.1 hba) (UInt16.not_lt.1 hab)
        have hbp : b.port ≠ p := fun h => hp (h.symm.trans heq.symm)
        simp [Ne.symm hp, hbp]

theorem find?_filter_port_ne (p q : UInt16) (l : List PortAllocation) :
    (l.filter (·.port != p)).find? (·.port == q) = if q = p then none else l.find? (·.port == q) := by
  rw [List.find?_filter]
  by_cases hq : q = p
  · subst hq
    simp [List.find?_eq_none]
  · rw [if_neg hq]
    congr 1
    funext a
    by_cases ha : a.port = q
    · simp [ha, hq]
    · simp [ha]

namespace Ports

theorem isHeld_eq (s : Ports) (p : UInt16) : s.isHeld p = (s.holder? p).isSome := by
  simp [isHeld, holder?]

theorem find?_eq_none_iff {s : Ports} {p : UInt16} : s.find? p = none ↔ s.holder? p = none := by
  simp [holder?]

theorem holder?_congr {s s' : Ports} (h : s'.held = s.held) : s'.holder? = s.holder? := by
  funext p
  simp [holder?, find?, h]

@[simp] theorem table_hold (s : Ports) (a : PortAllocation) : (s.hold a).table = s.table := rfl

theorem holder?_hold (s : Ports) (a : PortAllocation) :
    (s.hold a).holder? = Function.update s.holder? a.port (some a.holder) := by
  funext p
  rw [holder?, find?, hold, find?_insertAllocation, Function.update_apply]
  split_ifs
  · rfl
  · rfl

theorem holder?_drop (s : Ports) (p : UInt16) :
    (s.drop p).holder? = Function.update s.holder? p none := by
  funext q
  rw [holder?, find?, drop, find?_filter_port_ne, Function.update_apply]
  split_ifs
  · rfl
  · rfl

end Ports

/-! ## Increasing ports -/

/-- The ports of the allocations increase. -/
def Ascending (l : List PortAllocation) : Prop := l.Pairwise (·.port < ·.port)

theorem mem_of_mem_insertAllocation {a b : PortAllocation} {l : List PortAllocation}
    (h : b ∈ insertAllocation a l) : b = a ∨ b ∈ l := by
  induction l with
  | nil => simpa [insertAllocation] using h
  | cons c rest ih =>
    unfold insertAllocation at h
    split_ifs at h with hac hca
    · simpa using h
    · rcases List.mem_cons.1 h with rfl | h
      · simp
      · rcases ih h with rfl | h
        · simp
        · simp [h]
    · rcases List.mem_cons.1 h with rfl | h
      · simp
      · simp [h]

namespace Ascending

theorem nil : Ascending [] := List.Pairwise.nil

theorem filter {l : List PortAllocation} (h : Ascending l) (p : PortAllocation → Bool) :
    Ascending (l.filter p) :=
  List.Pairwise.filter p h

theorem insert {l : List PortAllocation} (h : Ascending l) (a : PortAllocation) :
    Ascending (insertAllocation a l) := by
  induction l with
  | nil => simp [insertAllocation, Ascending]
  | cons b rest ih =>
    obtain ⟨hb, hrest⟩ := List.pairwise_cons.1 h
    unfold insertAllocation
    split_ifs with hab hba
    · refine List.pairwise_cons.2 ⟨fun c hc => ?_, h⟩
      rcases List.mem_cons.1 hc with rfl | hc
      · exact hab
      · exact UInt16.lt_trans hab (hb c hc)
    · refine List.pairwise_cons.2 ⟨fun c hc => ?_, ih hrest⟩
      rcases mem_of_mem_insertAllocation hc with rfl | hc
      · exact hba
      · exact hb c hc
    · have heq : a.port = b.port := UInt16.le_antisymm (UInt16.not_lt.1 hba) (UInt16.not_lt.1 hab)
      exact List.pairwise_cons.2 ⟨fun c hc => heq ▸ hb c hc, hrest⟩

theorem foldl_insert {l : List PortAllocation} (h : Ascending l) (as : List PortAllocation) :
    Ascending (as.foldl (fun held a => insertAllocation a held) l) := by
  induction as generalizing l with
  | nil => exact h
  | cons a as ih => exact ih (h.insert a)

theorem ports_ne {l : List PortAllocation} (h : Ascending l) : l.Pairwise (·.port ≠ ·.port) :=
  List.Pairwise.imp UInt16.ne_of_lt h

theorem mem_ofOwner {s : Ports} (h : Ascending s.held) {owner : Int} {p : UInt16} :
    p ∈ s.ofOwner owner ↔ ∃ x, s.holder? p = some x ∧ x.owner = owner := by
  simp only [Ports.ofOwner, Ports.holder?, Ports.find?, List.mem_map, List.mem_filter,
    Option.map_eq_some_iff, find?_key_eq_some h.ports_ne, beq_iff_eq]
  constructor
  · rintro ⟨a, ⟨ha, ho⟩, rfl⟩
    exact ⟨a.holder, ⟨a, ⟨ha, rfl⟩, rfl⟩, ho⟩
  · rintro ⟨_, ⟨a, ⟨ha, rfl⟩, rfl⟩, ho⟩
    exact ⟨a, ⟨ha, ho⟩, rfl⟩

end Ascending

/-! ## Many ports -/

/-- Reserving different ports one after the other adds each of them. -/
theorem find?_foldl_insert {as : List PortAllocation} (h : as.Pairwise (·.port ≠ ·.port))
    (l : List PortAllocation) (p : UInt16) :
    (as.foldl (fun held a => insertAllocation a held) l).find? (·.port == p) =
      (as.find? (·.port == p)).or (l.find? (·.port == p)) := by
  induction as generalizing l with
  | nil => simp
  | cons a as ih =>
    obtain ⟨ha, has⟩ := List.pairwise_cons.1 h
    rw [List.foldl_cons, ih has, find?_insertAllocation]
    by_cases hp : p = a.port
    · have hnone : as.find? (·.port == p) = none := by
        rw [List.find?_eq_none]
        intro b hb
        simpa [hp] using Ne.symm (ha b hb)
      simp [hp ▸ hnone, hp]
    · simp [hp, Ne.symm hp]

end ProxyFleet

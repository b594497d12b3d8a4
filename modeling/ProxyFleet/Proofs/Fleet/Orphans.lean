import ProxyFleet.Proofs.Fleet.Run
import ProxyFleet.Proofs.Nodes.Stored
import ProxyFleet.Proofs.Traffic.Pull

/-!
# What a pass leaves staged

A pass over the nodes commits what is staged for each node that is stored. To remove a node does not look
at what is staged for it, and no pass comes to that again.

* `FleetCall.Proper` : a call with values that can be stored and read;
* `Fleet.Legible` : every stored node and staged batch can be read; proper calls keep this (`Legible.call`);
* `Legible.foldl_pull` : pulling from some nodes leaves nothing of them staged, and all else;
* `Fleet.pullAll_leaves_iff` : when a pass leaves nothing staged.
-/

namespace ProxyFleet

set_option autoImplicit false

/-- A call with values that can be stored and read: groups and counters of 64 bits, a finite rate, and a
day that the calendar has. -/
def FleetCall.Proper : FleetCall → Prop
  | roster c => c.GroupsFit
  | stage _ day traffic => day.Valid ∧ traffic.Fits
  | addUser _ _ _ | commit _ | pull _ | pullAll | agents _ => True

namespace Fleet

variable {s : Fleet}

/-- Every node that is stored and every batch that is staged can be read. -/
structure Legible (s : Fleet) : Prop where
  sound : s.roster.Sound
  stores : s.roster.Stores
  numbered : s.ledger.stagedRows.Numbered
  staged : ∀ e ∈ s.ledger.stagedRows.rows, e.2.Legible

namespace Legible

theorem empty (settings : Settings) : (Fleet.empty settings).Legible where
  sound := Roster.Sound.empty settings.engine settings.ports
  stores := Roster.Stores.empty settings.engine settings.ports
  numbered := Table.Numbered.empty
  staged := by simp [Fleet.empty]

/-- A pull leaves nothing of its node staged, and all else. -/
theorem pull_rows (h : s.Legible) (n : Node) (now : Instant) :
    (s.pullNode n now).2.ledger.stagedRows.rows = s.ledger.stagedRows.rows.filter (fun e => e.2.node ≠ n.id) ∧
      (s.pullNode n now).2.ledger.stagedRows.Numbered := by
  obtain ⟨bs, hbs⟩ := Ledger.exists_staged h.staged n.id
  exact Collection.stagedRows_pull (s := ⟨s.ledger, s.agents⟩) s.settings.agents n now h.numbered hbs

theorem pull (h : s.Legible) (n : Node) (now : Instant) : (s.pullNode n now).2.Legible := by
  obtain ⟨hrows, hnumbered⟩ := h.pull_rows n now
  refine ⟨h.sound, h.stores, hnumbered, fun e he => ?_⟩
  rw [hrows] at he
  exact h.staged e (List.mem_filter.1 he).1

/-- Every proper call keeps what is stored legible. -/
theorem call (h : s.Legible) (now : Instant) {c : FleetCall} (hc : c.Proper) : (s.call now c).Legible := by
  cases c with
  | roster c => exact ⟨h.sound.call now c, h.stores.call h.sound now hc, h.numbered, h.staged⟩
  | addUser uuid token draft =>
    rw [Fleet.call]
    cases s.ledger.users.add uuid token draft now with
    | error e => exact h
    | ok added => exact ⟨h.sound, h.stores, h.numbered, h.staged⟩
  | stage node day traffic =>
    refine ⟨h.sound, h.stores, h.numbered.insert _, fun e he => ?_⟩
    rcases List.mem_append.1 he with he | he
    · exact h.staged e he
    · rw [List.mem_singleton.1 he]
      exact ⟨⟨0, node, day, traffic⟩, .staged _ _ _ _ _, hc⟩
  | commit b =>
    -- a commit takes a row away, and adds none
    have herased := Ledger.stagedRows_commit s.ledger b
    refine ⟨h.sound, h.stores, herased ▸ h.numbered.eraseId b.id, fun e he => ?_⟩
    have he : e ∈ (s.ledger.commit b).2.stagedRows.rows := he
    rw [herased, Table.rows_eraseId] at he
    exact h.staged e (List.mem_filter.1 he).1
  | pull n => exact h.pull n now
  | pullAll => exact forEachNode_keeps (fun s n hs => hs.pull n now) now h
  | agents agents => exact ⟨h.sound, h.stores, h.numbered, h.staged⟩

/-- Pulling from some nodes leaves nothing of them staged, and all else. -/
theorem foldl_pull (h : s.Legible) (nodes : List Node) (now : Instant) :
    (nodes.foldl (fun s n => (s.pullNode n now).2) s).ledger.stagedRows.rows =
      s.ledger.stagedRows.rows.filter fun e => e.2.node ∉ nodes.map (·.id) := by
  induction nodes generalizing s with
  | nil => simp
  | cons n nodes ih =>
    rw [List.foldl_cons, ih (h.pull n now), (h.pull_rows n now).1, List.filter_filter]
    refine List.filter_congr fun e _ => ?_
    rw [List.map_cons, Bool.eq_iff_iff]
    simp [and_comm]

end Legible

/-- The node is stored. -/
def Stored (s : Fleet) (node : Int) : Prop := node ∈ s.roster.nodes.rows.map (·.1)

instance (s : Fleet) (node : Int) : Decidable (s.Stored node) :=
  inferInstanceAs (Decidable (node ∈ s.roster.nodes.rows.map (·.1)))

/-- **What a pass leaves staged.** After any run, whatever the agents answer, a pass over the nodes comes
to its end and leaves staged just the batches of nodes that are no longer stored. So nothing stays staged
exactly if every staged batch is of a node that is stored. -/
theorem pullAll_leaves_iff (settings : Settings) (calls : List (Instant × FleetCall))
    (hcalls : ∀ c ∈ calls, c.2.Proper) (now : Instant) :
    let s := (empty settings).run calls
    let r := s.pullAll now
    r.1 = .ok () ∧
    r.2.ledger.stagedRows.rows = s.ledger.stagedRows.rows.filter (fun e => ¬s.Stored e.2.node) ∧
    (r.2.ledger.stagedRows.rows = [] ↔ ∀ e ∈ s.ledger.stagedRows.rows, s.Stored e.2.node) := by
  intro s r
  have h : s.Legible := run_keeps (P := Legible) (fun _ c hc hs => hs.call c.1 (hcalls c hc)) (.empty settings)
  obtain ⟨nodes, hlist, hids, -⟩ := NodeTable.exists_list h.stores now
  have hpass : r = (.ok (), nodes.foldl (fun s n => (s.pullNode n now).2) s) := by
    show s.forEachNode _ now = _
    rw [forEachNode, hlist]
  have hrows : r.2.ledger.stagedRows.rows = s.ledger.stagedRows.rows.filter fun e => ¬s.Stored e.2.node := by
    rw [hpass, h.foldl_pull, hids]
    rfl
  refine ⟨congrArg Prod.fst hpass, hrows, ?_⟩
  rw [hrows, List.filter_eq_nil_iff]
  simp

/-- A node is created, and a pull from it stops before it commits. -/
def interruptedPull : List (Instant × FleetCall) :=
  [.roster (.create (fun _ => false) (Roster.sampleRequest "a")),
    .stage 1 ⟨2024, 2, 29⟩ ⟨"shadowsocks", .one, 30, 70, []⟩].map (⟨0⟩, ·)

theorem pullAll_leaves_iff_interruptedPull :
    let s := (empty {}).run interruptedPull
    let r := s.pullAll ⟨0⟩
    (∀ c ∈ interruptedPull, c.2.Proper) ∧
    r.1 = .ok () ∧
    r.2.ledger.stagedRows.rows = s.ledger.stagedRows.rows.filter (fun e => ¬s.Stored e.2.node) ∧
    (r.2.ledger.stagedRows.rows = [] ↔ ∀ e ∈ s.ledger.stagedRows.rows, s.Stored e.2.node) := by
  have hday : Day.Valid ⟨2024, 2, 29⟩ := by constructor <;> decide
  have hcreate : RosterCall.GroupsFit (.create (fun _ => false) (Roster.sampleRequest "a")) := by
    simp [RosterCall.GroupsFit, Roster.sampleRequest]
  have hfits : Traffic.Fits ⟨"shadowsocks", .one, 30, 70, []⟩ :=
    ⟨by decide, ⟨by decide, by decide⟩, ⟨by decide, by decide⟩, by simp⟩
  have hproper : ∀ c ∈ interruptedPull, c.2.Proper := by
    simp [interruptedPull, FleetCall.Proper, hday, hcreate, hfits]
  exact ⟨hproper, pullAll_leaves_iff {} interruptedPull hproper ⟨0⟩⟩

/-- If the node is removed before the next pass, what was staged for it is not committed, by this pass or
a later one, though no agent refuses anything. -/
theorem pullAll_leaves_removed :
    let s := (empty {}).run (interruptedPull ++ [(⟨0⟩, .roster (.delete 1))])
    let r := s.pullAll ⟨0⟩
    s.roster.nodes.rows.length = 0 ∧ r.2.ledger.stagedRows.rows.map (·.2.node) = [1] ∧
      r.2.ledger.nodeDay 1 ⟨2024, 2, 29⟩ = (0, 0) ∧
      (r.2.pullAll ⟨0⟩).2.ledger.stagedRows.rows.map (·.2.node) = [1] := by
  decide +kernel

end Fleet

end ProxyFleet

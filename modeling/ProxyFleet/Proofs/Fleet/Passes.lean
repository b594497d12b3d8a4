import ProxyFleet.Proofs.Agent.Local
import ProxyFleet.Proofs.Fleet.Balance
import ProxyFleet.Proofs.Nodes.Stored

/-!
# What one node's agent does makes no difference to the others

A pass comes to the nodes one after the other, whatever becomes of each. With every agent at an address of
its own, what a pass does for a node is what would be done for it alone: the calls are the same, and the
batches that are added are, which add up on the users that the nodes share.

* `Collection.SameFor`, `sameFor_pull` : what a pull depends on, and that pulls from other nodes leave it;
* `Collection.foldl_pull_booked` : what pulls from different nodes add, one after the other;
* `Fleet.SyncedAsAlone`, `Fleet.AddsUp` : what a pass does, compared with each node alone;
* `Fleet.passes_apart` : this holds of both passes.
-/

namespace ProxyFleet

set_option autoImplicit false

namespace Collection

open Ledger

variable {s t : Collection} (settings : AgentSettings) (n : Node) (now : Instant)

/-! ## Pulls from other nodes -/

/-- The same is staged for the node, and its agent is the same. -/
structure SameFor (s t : Collection) : Prop where
  staged : s.ledger.staged n.id = t.ledger.staged n.id
  agent : s.agents.get (Endpoint.ofNode n settings).baseUrl = t.agents.get (Endpoint.ofNode n settings).baseUrl

theorem SameFor.counted (h : SameFor settings n s t) : s.counted settings n now = t.counted settings n now := by
  have hanswer : (s.agents.call (Endpoint.ofNode n settings) (.stats true)).1 =
      (t.agents.call (Endpoint.ofNode n settings) (.stats true)).1 := by
    rw [Agents.call_eq, Agents.call_eq, h.agent]
  rw [Collection.counted, Collection.counted, h.staged, hanswer]

/-- A pull from another node with another agent makes no difference to a node. -/
theorem sameFor_pull (h : s.ledger.stagedRows.Numbered) {m : Node} (hid : n.id ≠ m.id)
    (hurl : (Endpoint.ofNode n settings).baseUrl ≠ (Endpoint.ofNode m settings).baseUrl) :
    SameFor settings n (s.pull settings m now).2 s := by
  cases hbs : s.ledger.staged m.id with
  | error e =>
    -- what cannot be read is left alone, and no agent is called
    rw [pull_of_illegible settings m now hbs]
    exact ⟨rfl, rfl⟩
  | ok bs =>
    have hselect : (s.pull settings m now).2.ledger.stagedRows.select (·.node == n.id) =
        s.ledger.stagedRows.select (·.node == n.id) := by
      rw [Table.select, Table.select, (stagedRows_pull settings m now h hbs).1, List.filter_filter]
      refine List.filter_congr fun e _ => ?_
      by_cases hnode : e.2.node = n.id
      · simp [hnode, hid]
      · simp [hnode]
    refine ⟨?_, ?_⟩
    · rw [Ledger.staged, Ledger.staged, hselect]
    · rw [agents_pull settings m now hbs, Agents.get_call_of_ne _ _ _ hurl]

/-- Pulls from different nodes with different agents add what each of them would add alone. -/
theorem foldl_pull_booked {nodes : List Node} (h : s.ledger.Keyed) (hids : (nodes.map (·.id)).Nodup)
    (hurls : (nodes.map fun n => (Endpoint.ofNode n settings).baseUrl).Nodup) :
    Booked s.ledger (nodes.flatMap fun n => s.counted settings n now)
      (nodes.foldl (fun s n => (s.pull settings n now).2) s).ledger := by
  induction nodes generalizing s with
  | nil => exact Booked.refl _
  | cons m nodes ih =>
    obtain ⟨hid, hids⟩ := List.nodup_cons.1 hids
    obtain ⟨hurl, hurls⟩ := List.nodup_cons.1 hurls
    -- the nodes that are left find what they would have found at the start
    have hsame : nodes.flatMap (fun n => (s.pull settings m now).2.counted settings n now) =
        nodes.flatMap fun n => s.counted settings n now := by
      refine List.flatMap_congr fun n hn => SameFor.counted settings n now ?_
      exact sameFor_pull settings n now h.batches (fun heq => hid (List.mem_map.2 ⟨n, hn, heq⟩))
        fun heq => hurl (List.mem_map.2 ⟨n, hn, heq⟩)
    rw [List.flatMap_cons, List.foldl_cons, ← hsame]
    exact (booked_counted settings m now h).trans (ih (keyed_pull settings m now h) hids hurls)

end Collection

/-! ## Parts of different keys -/

section Parts

variable {ι α κ : Type} [BEq κ] [LawfulBEq κ] {key : ι → κ} {keyOf : α → κ} {part : ι → List α} {is : List ι}

/-- Of parts with keys of their own, no key of another is found in any. -/
theorem filter_flatMap_of_notMem (hpart : ∀ i, ∀ a ∈ part i, keyOf a = key i) {k : κ} (hk : k ∉ is.map key) :
    (is.flatMap part).filter (keyOf · == k) = [] := by
  rw [List.filter_eq_nil_iff]
  intro a ha
  obtain ⟨i, hi, ha⟩ := List.mem_flatMap.1 ha
  rw [hpart i a ha, beq_iff_eq]
  exact fun heq => hk (List.mem_map.2 ⟨i, hi, heq⟩)

/-- Of parts whose keys are all different, one is had back by its key. -/
theorem filter_flatMap_of_mem (hpart : ∀ i, ∀ a ∈ part i, keyOf a = key i) (hkeys : (is.map key).Nodup) {i : ι}
    (hi : i ∈ is) : (is.flatMap part).filter (keyOf · == key i) = part i := by
  have hown : (part i).filter (keyOf · == key i) = part i :=
    List.filter_eq_self.2 fun a ha => beq_iff_eq.2 (hpart i a ha)
  induction is with
  | nil => cases hi
  | cons j is ih =>
    obtain ⟨hnew, hrest⟩ := List.nodup_cons.1 hkeys
    rw [List.flatMap_cons, List.filter_append]
    rcases List.mem_cons.1 hi with rfl | hi
    · rw [hown, filter_flatMap_of_notMem hpart hnew, List.append_nil]
    · have hother : (part j).filter (keyOf · == key i) = [] := by
        rw [List.filter_eq_nil_iff]
        intro a ha
        rw [hpart j a ha, beq_iff_eq]
        exact fun heq => hnew (List.mem_map.2 ⟨i, hi, heq.symm⟩)
      rw [hother, List.nil_append, ih hrest hi]

end Parts

/-- The row but for what was used. -/
def UserRow.unused (r : UserRow) : UserRow := { r with upload := 0, download := 0 }

namespace Fleet

/-- Where the agent of a node is called. -/
def urlOf (s : Fleet) (n : Node) : String := (Endpoint.ofNode n s.settings.agents).baseUrl

/-- At the agent of a node the same calls were made, in the same order, as for the node alone, and the
agent is as it would be after those. -/
structure SyncedAsAlone (s : Fleet) (now : Instant) (n : Node) (after : Fleet) : Prop where
  calls : ∃ made alone, after.agents.calls = s.agents.calls ++ made ∧
    (s.syncNode n now).2.agents.calls = s.agents.calls ++ alone ∧
    made.filter (·.endpoint.baseUrl == s.urlOf n) = alone
  agent : after.agents.get (s.urlOf n) = (s.syncNode n now).2.agents.get (s.urlOf n)

/-- What was added is what pulls from each of the nodes alone would have added, all together. -/
structure AddsUp (s : Fleet) (now : Instant) (nodes : List Node) (after : Fleet) : Prop where
  balance : ∀ a, after.ledger.balance a =
    s.ledger.balance a + (nodes.map fun n => (s.pullNode n now).2.ledger.balance a - s.ledger.balance a).sum
  days : ∀ k, k ∈ Ledger.dayKeys after.ledger.userDayRows ↔ k ∈ Ledger.dayKeys s.ledger.userDayRows ∨
    ∃ n ∈ nodes, k ∈ Ledger.dayKeys (s.pullNode n now).2.ledger.userDayRows
  nodeRows : ∀ n ∈ nodes, after.ledger.nodeRows n.id = (s.pullNode n now).2.ledger.nodeRows n.id
  otherRows : ∀ node, node ∉ nodes.map (·.id) → after.ledger.nodeRows node = s.ledger.nodeRows node
  users : after.ledger.users.rows.map (fun e => (e.1, e.2.unused)) =
    s.ledger.users.rows.map fun e => (e.1, e.2.unused)

variable {s : Fleet} {nodes : List Node}

/-! ## Bringing users in line -/

theorem foldl_syncNode (s : Fleet) (nodes : List Node) (now : Instant) :
    nodes.foldl (fun s n => (s.syncNode n now).2) s =
      { s with
        agents := nodes.foldl (fun agents n => (agents.syncUsers s.ledger.users s.settings.agents n now).2) s.agents } := by
  induction nodes generalizing s with
  | nil => rfl
  | cons n nodes ih => exact ih (s.syncNode n now).2

theorem syncAll_apart (hurls : (nodes.map s.urlOf).Nodup) (now : Instant) :
    ∀ n ∈ nodes, s.SyncedAsAlone now n (nodes.foldl (fun s n => (s.syncNode n now).2) s) := by
  intro n hn
  choose own hown using fun n => Agents.syncUsers_local s.ledger.users s.settings.agents n now
  obtain ⟨hcalls, hagents, -⟩ := Agents.foldl_local hown hurls s.agents
  rw [foldl_syncNode]
  refine ⟨⟨_, _, hcalls, (hown n).calls s.agents, filter_flatMap_of_mem (fun m c hc => ?_) hurls hn⟩, hagents n hn⟩
  obtain ⟨action, -, rfl⟩ := List.mem_map.1 hc
  rfl

/-! ## Collecting traffic -/

theorem foldl_pullNode (s : Fleet) (nodes : List Node) (now : Instant) :
    nodes.foldl (fun s n => (s.pullNode n now).2) s =
      let c := nodes.foldl (fun c n => (Collection.pull c s.settings.agents n now).2) ⟨s.ledger, s.agents⟩
      { s with ledger := c.ledger, agents := c.agents } := by
  induction nodes generalizing s with
  | nil => rfl
  | cons n nodes ih => exact ih (s.pullNode n now).2

theorem pullAll_adds_up (h : s.ledger.Keyed) (hids : (nodes.map (·.id)).Nodup) (hurls : (nodes.map s.urlOf).Nodup)
    (now : Instant) : s.AddsUp now nodes (nodes.foldl (fun s n => (s.pullNode n now).2) s) := by
  let c : Collection := ⟨s.ledger, s.agents⟩
  let settings := s.settings.agents
  have hall := c.foldl_pull_booked settings now h hids hurls
  have halone : ∀ n, s.ledger.Booked (c.counted settings n now) (s.pullNode n now).2.ledger := fun n =>
    c.booked_counted settings n now h
  have hnode : ∀ n, ∀ b ∈ c.counted settings n now, b.node = n.id := fun n => c.node_of_counted settings n now
  rw [foldl_pullNode]
  refine ⟨fun a => ?_, fun k => ?_, fun n hn => ?_, fun node hnot => ?_, ?_⟩
  · have hgrown : ∀ n, (s.pullNode n now).2.ledger.balance a - s.ledger.balance a =
        ((c.counted settings n now).map (·.share s.ledger a)).sum := by
      intro n
      rw [(halone n).balance, add_sub_cancel_left]
    simp only [hgrown]
    refine (hall.balance a).trans ?_
    rw [List.map_flatMap, List.flatMap_def, List.sum_flatten, List.map_map]
    rfl
  · refine (hall.opened k).trans ?_
    simp only [(halone _).opened, List.mem_flatMap]
    constructor
    · rintro (hk | ⟨b, ⟨n, hn, hb⟩, hopens⟩)
      · exact .inl hk
      · exact .inr ⟨n, hn, .inr ⟨b, hb, hopens⟩⟩
    · rintro (hk | ⟨n, hn, hk | ⟨b, hb, hopens⟩⟩)
      · exact .inl hk
      · exact .inl hk
      · exact .inr ⟨b, ⟨n, hn, hb⟩, hopens⟩
  · refine (hall.nodeRows n.id).trans ?_
    have hown : (c.counted settings n now).filter (·.node == n.id) = c.counted settings n now :=
      List.filter_eq_self.2 fun b hb => beq_iff_eq.2 (hnode n b hb)
    rw [(halone n).nodeRows, filter_flatMap_of_mem hnode hids hn, hown]
  · refine (hall.nodeRows node).trans ?_
    rw [filter_flatMap_of_notMem hnode hnot, List.foldl_nil]
  · refine (congrArg _ hall.users).trans ?_
    rw [Ledger.credited, List.map_map]
    rfl

/-! ## Both passes -/

/-- Two nodes on hosts of their own that serve the same user, with a batch staged for one of them. Its
agent gives no counts. -/
def twoNodeCalls : List (Instant × FleetCall) :=
  [.roster (.create (fun _ => false) { Roster.sampleRequest "a" with groups := [1] }),
    .roster (.create (fun _ => false) { Roster.sampleRequest "b" with host := "127.0.0.2", groups := [1] }),
    .addUser "u" "t" { group := some 1 },
    .stage 1 ⟨2024, 2, 29⟩ ⟨"shadowsocks", .one, 30, 70, [⟨"u", 10, 20⟩]⟩,
    .agents ((({} : Agents).set "http://127.0.0.1:9000/shadowsocks" { refuses := fun a => a.name == "stats" }).set
      "http://127.0.0.2:9000/shadowsocks"
      { stats := { uplinkBytes := 5, users := [{ username := "u", uplinkBytes := 5 }] } })].map (⟨0⟩, ·)

/-- The user is charged for what was staged for the one node and what the agent of the other has counted. -/
example :
    let s := (empty {}).run twoNodeCalls
    (s.pullAll ⟨0⟩).2.ledger.users.rows.map (·.2.total) = [(15, 20)] ∧
      (s.syncAll ⟨0⟩).2.agents.calls.length = 4 := by
  decide +kernel

end Fleet

end ProxyFleet

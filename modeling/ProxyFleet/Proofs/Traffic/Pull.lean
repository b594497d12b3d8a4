import Mathlib.Data.List.Induction
import ProxyFleet.Proofs.Number.Word64
import ProxyFleet.Proofs.Sync.Run
import ProxyFleet.Proofs.Traffic.Accounts
import ProxyFleet.Proofs.Traffic.Run
import ProxyFleet.Sync.Traffic

/-!
# What a pull adds

A pull commits the batches of a node that are still staged, then asks the agent for what it has counted
and stages and commits that too. So every batch is added once, whether or not the agent answers, and
nothing of the node stays staged.

* `CommitSummary.total`, `CommitSummary.foldl_add` : summaries taken together;
* `stagedRows_commitAll`, `commitAll_booked` : what commits take from the staged traffic, and what they add;
* `Keyed.stage`, `Keyed.commit` : both keep unique what the tables should;
* `stagedRows_replay`, `replay_booked` : the same for what is staged for a node;
* `Node.drained`, `settle_booked` : what an agent has counted, as a batch that is added;
* `pull_keeps` : a pull keeps what staging and committing keep;
* `stagedRows_pull`, `agents_pull`, `pull_booked` : what a pull leaves staged, asks, adds and answers;
* `counted`, `booked_counted` : the batches that a pull adds, which are none if what is staged cannot be read;
* `pull_counts_once` : so every batch is added once.
-/

namespace ProxyFleet

set_option autoImplicit false

/-! ## Summaries -/

namespace CommitSummary

/-- The field-wise sum. -/
def total (ss : List CommitSummary) : CommitSummary where
  usersUpdated := (ss.map (·.usersUpdated)).sum
  usersSkipped := (ss.map (·.usersSkipped)).sum
  upload := (ss.map (·.upload)).sum
  download := (ss.map (·.download)).sum

/-- The summary with counts of 64 bits. -/
def wrapped (s : CommitSummary) : CommitSummary :=
  { s with upload := Word64.wrap s.upload, download := Word64.wrap s.download }

theorem wrap_add (i j : Int) : Word64.wrap (Word64.wrap i + j) = Word64.wrap (i + j) := Int.bmod_add_bmod

theorem foldl_add (ss : List CommitSummary) : ss.foldl add {} = (total ss).wrapped := by
  induction ss using List.reverseRecOn with
  | nil => rfl
  | append_singleton ss s ih =>
    rw [List.foldl_append, List.foldl_cons, List.foldl_nil, ih]
    simp [add, total, wrapped, wrap_add]

theorem wrapped_eq_self {s : CommitSummary} (hupload : SixtyFourBits s.upload)
    (hdownload : SixtyFourBits s.download) : s.wrapped = s := by
  cases s
  rw [wrapped, Word64.wrap_eq_self_iff.2 hupload, Word64.wrap_eq_self_iff.2 hdownload]

end CommitSummary

namespace Ledger

variable {l l' : Ledger} {bs : List TrafficBatch} {b : TrafficBatch}

/-! ## Committing -/

theorem stagedRows_apply (l : Ledger) (node : Int) (day : Day) (t : Traffic) :
    (l.apply node day t).2.stagedRows = l.stagedRows :=
  List.foldlRecOn (motive := fun (s : CommitSummary × Ledger) => s.2.stagedRows = l.stagedRows) t.users
    (addEntry t.rate day) rfl fun s hs u _ => (stagedRows_addEntry t.rate day s u).1.trans hs

/-- A batch that is committed is no longer staged, if it was. -/
theorem stagedRows_commit (l : Ledger) (b : TrafficBatch) :
    (l.commit b).2.stagedRows = l.stagedRows.eraseId b.id := by
  unfold commit
  split_ifs with hstaged
  · rw [stagedRows_apply]
  · exact (Table.eraseId_of_not_has hstaged).symm

theorem stagedRows_commitAll (l : Ledger) (bs : List TrafficBatch) :
    (l.commitAll bs).2.stagedRows = l.stagedRows.erase fun id _ => (bs.map (·.id)).contains id := by
  unfold commitAll
  generalize ({} : CommitSummary) = s
  induction bs generalizing l s with
  | nil => exact (Table.erase_none _).symm
  | cons b bs ih =>
    rw [List.foldl_cons, ih, stagedRows_commit, Table.eraseId, Table.erase_erase]
    simp only [List.map_cons, List.contains_cons, Bool.or_comm]

/-- Committing a batch that is staged adds it. -/
theorem commit_booked (h : l.Keyed) (hb : l.stagedRows.has b.id = true) :
    Booked l [b] (l.commit b).2 ∧ (l.commit b).1 = b.traffic.summary l := by
  obtain ⟨hbooked, hsummary⟩ := apply_booked (l := { l with stagedRows := l.stagedRows.eraseId b.id })
    ⟨h.distinct.ids, h.distinct.uuids⟩ h.days b
  rw [commit, if_pos hb]
  exact ⟨(Booked.restaged l _).trans hbooked, hsummary⟩

theorem Keyed.stage (h : l.Keyed) (node : Int) (day : Day) (t : Traffic) (now : Instant) :
    (l.stage node day t now).2.Keyed :=
  ⟨⟨h.distinct.ids, h.distinct.uuids⟩, h.batches.insert _, h.days⟩

theorem Keyed.commit (h : l.Keyed) (b : TrafficBatch) : (l.commit b).2.Keyed := by
  cases hstaged : l.stagedRows.has b.id with
  | false =>
    rw [commit_of_unstaged hstaged]
    exact h
  | true => exact (commit_booked h hstaged).1.keyed h (stagedRows_commit l b ▸ h.batches.eraseId b.id)

theorem commitAll_booked (h : l.Keyed) (hids : (bs.map (·.id)).Nodup)
    (hstaged : ∀ b ∈ bs, l.stagedRows.has b.id = true) :
    Booked l bs (l.commitAll bs).2 ∧
      (l.commitAll bs).1 = (bs.map (·.traffic.summary l)).foldl CommitSummary.add {} := by
  unfold commitAll
  generalize ({} : CommitSummary) = s
  induction bs generalizing l s with
  | nil => exact ⟨Booked.refl l, rfl⟩
  | cons b bs ih =>
    obtain ⟨hnew, hids⟩ := List.nodup_cons.1 hids
    obtain ⟨hb, hrest⟩ := List.forall_mem_cons.1 hstaged
    obtain ⟨hbooked, hsummary⟩ := commit_booked h hb
    have herased := stagedRows_commit l b
    rw [List.foldl_cons]
    dsimp only
    generalize l.commit b = r at hbooked herased hsummary
    have hkeyed : r.2.Keyed := hbooked.keyed h (herased ▸ h.batches.eraseId b.id)
    -- no two batches have one id, so the others are still staged
    have hstill : ∀ b' ∈ bs, r.2.stagedRows.has b'.id = true := by
      intro b' hb'
      have hne : b'.id ≠ b.id := fun heq => hnew (List.mem_map.2 ⟨b', hb', heq⟩)
      rw [herased, Table.has_eraseId, hrest b' hb', beq_false_of_ne hne]
      rfl
    obtain ⟨hbooked', hsummary'⟩ := ih hkeyed hids hstill (s.add r.1)
    refine ⟨hbooked.trans hbooked', ?_⟩
    rw [hsummary', List.map_cons, List.foldl_cons, hsummary]
    simp only [hbooked.summary]

/-! ## Committing what is staged for a node -/

/-- What is read for a node are the batches of its rows. -/
theorem staged_yields (l : Ledger) (node : Int) : Yields (l.staged node) fun bs =>
    bs.map (·.id) = (l.stagedRows.select (·.node == node)).map (·.1) ∧ ∀ b ∈ bs, b.node = node := by
  have hread : ∀ e : Int × StagedRow, Yields (e.2.batch e.1) fun b => b.id = e.1 ∧ b.node = e.2.node := fun e =>
    ((Yields.any (Day.read e.2.day)).mapError.bind fun _ _ =>
      (Yields.any (e.2.traffic.read Traffic.decoder)).bind fun _ _ => .ok ⟨rfl, rfl⟩)
  intro bs hbs
  refine ⟨?_, Yields.mapM (fun e he b hb => ?_) bs hbs⟩
  · exact Yields.mapM_keys (fun e _ b hb => (hread e b hb).1) bs hbs
  · have hnode : e.2.node = node := by simpa using (List.mem_filter.1 he).2
    exact (hread e b hb).2.trans hnode

/-- Committing what is staged for a node leaves nothing of it staged. -/
theorem stagedRows_replay (h : l.stagedRows.Numbered) {node : Int} (hbs : l.staged node = .ok bs) :
    (l.commitAll bs).2.stagedRows = l.stagedRows.erase fun _ r => r.node == node := by
  rw [stagedRows_commitAll, (staged_yields l node bs hbs).1, h.erase_select fun r => r.node == node]

theorem replay_booked (h : l.Keyed) {node : Int} (hbs : l.staged node = .ok bs) :
    Booked l bs (l.commitAll bs).2 ∧
      (l.commitAll bs).1 = (bs.map (·.traffic.summary l)).foldl CommitSummary.add {} := by
  have hids := (staged_yields l node bs hbs).1
  refine commitAll_booked h ?_ fun b hb => ?_
  · rw [hids]
    exact List.pairwise_map.2 ((h.batches.ascending.filter _).imp fun hlt => Int.ne_of_lt hlt)
  · obtain ⟨e, he, hid⟩ := List.mem_map.1 (hids ▸ List.mem_map.2 ⟨b, hb, rfl⟩)
    exact List.any_eq_true.2 ⟨e, (List.mem_filter.1 he).1, beq_iff_eq.2 hid⟩

end Ledger

/-! ## What an agent has counted -/

/-- What the agent of a node has counted, as a batch of today's. -/
def Node.drained (n : Node) (stats : RemoteStats) (now : Instant) : TrafficBatch :=
  ⟨0, n.id, now.day, ratedTraffic n stats⟩

/-- A user is charged for each entry of the user's name that has a counter above zero, at the node's
rate. -/
theorem ofUser_ratedTraffic (n : Node) (stats : RemoteStats) (uuid : String) :
    (ratedTraffic n stats).ofUser uuid =
      ((stats.users.filter fun u => u.username == uuid && (0 < u.uplinkBytes || 0 < u.downlinkBytes)).map fun u =>
        (rated u.uplinkBytes n.effectiveRate, rated u.downlinkBytes n.effectiveRate)).sum := by
  rw [Traffic.ofUser, ratedTraffic, List.filter_map, List.map_map, List.filter_filter]
  rfl

namespace Ledger

variable {l : Ledger}

/-- What is added has nothing to do with the id of the batch. -/
theorem Booked.renamed {l' : Ledger} {b : TrafficBatch} (h : Booked l [b] l') (id : Int) :
    Booked l [{ b with id }] l' where
  users := h.users
  balance := h.balance
  opened := by simpa using h.opened
  nodup := h.nodup
  nodeRows node := by
    rw [h.nodeRows]
    by_cases hnode : b.node = node
    · simp [hnode, addToRows]
    · simp [hnode]

/-- To add nothing changes nothing. -/
theorem Booked.nothing {b : TrafficBatch} (h : b.traffic.isNothing = true) : Booked l [b] l := by
  simp only [Traffic.isNothing, Bool.and_eq_true, beq_iff_eq, List.isEmpty_iff] at h
  obtain ⟨⟨hupload, hdownload⟩, husers⟩ := h
  have hofUser : ∀ uuid, b.traffic.ofUser uuid = 0 := by
    intro uuid
    rw [Traffic.ofUser, husers]
    rfl
  refine ⟨?_, fun a => ?_, fun k => ?_, id, fun node => ?_⟩
  · simp [hofUser, credited_zero]
  · have hshare : b.share l a = 0 := by
      cases a with
      | user id => cases h : l.uuid? id <;> simp [TrafficBatch.share, Traffic.share, h, hofUser]
      | userDay key => cases h : l.uuid? key.user <;> simp [TrafficBatch.share, Traffic.share, h, hofUser]
      | nodeDay node day => simp [TrafficBatch.share, Traffic.share, Traffic.booked, hupload, hdownload]
    simp [hshare]
  · simp [husers]
  · have hrows : addToRows (l.nodeRows node) b = l.nodeRows node := by simp [addToRows, hupload, hdownload]
    by_cases hnode : b.node = node
    · simp [hnode, hrows]
    · simp [hnode]

theorem summary_of_isNothing {t : Traffic} (h : t.isNothing = true) : t.summary l = {} := by
  simp only [Traffic.isNothing, Bool.and_eq_true, beq_iff_eq, List.isEmpty_iff] at h
  obtain ⟨⟨hupload, hdownload⟩, husers⟩ := h
  rw [Traffic.summary, hupload, hdownload, husers]
  rfl

end Ledger

namespace Collection

open Ledger

variable {s : Collection}

/-- Settling what was counted leaves nothing of it staged. -/
theorem stagedRows_settle (h : s.ledger.stagedRows.Numbered) (n : Node) (t : Traffic) (now : Instant) :
    (s.settle n t now).2.ledger.stagedRows.rows = s.ledger.stagedRows.rows ∧
      (s.settle n t now).2.ledger.stagedRows.Numbered := by
  unfold settle
  split_ifs
  · exact ⟨rfl, h⟩
  · dsimp only [Ledger.stage]
    rw [stagedRows_commit]
    exact ⟨h.rows_eraseId_insert _, (h.insert _).eraseId _⟩

theorem settle_booked (h : s.ledger.Keyed) (n : Node) (stats : RemoteStats) (now : Instant) :
    let r := s.settle n (ratedTraffic n stats) now
    Booked s.ledger [n.drained stats now] r.2.ledger ∧ r.1 = (ratedTraffic n stats).summary s.ledger := by
  unfold settle
  split_ifs with hnothing
  · exact ⟨Booked.nothing hnothing, (summary_of_isNothing hnothing).symm⟩
  · have hinsert := h.batches.insert ⟨n.id, now.day.text, .ofText (ratedTraffic n stats).toJson.compact, now.stamp⟩
    obtain ⟨hbooked, hsummary⟩ := commit_booked
      (l := (s.ledger.stage n.id now.day (ratedTraffic n stats) now).2)
      (b := ⟨s.ledger.stagedRows.nextId, n.id, now.day, ratedTraffic n stats⟩)
      ⟨⟨h.distinct.ids, h.distinct.uuids⟩, hinsert, h.days⟩
      (by simp [Ledger.stage, Table.has_insert])
    exact ⟨((Booked.restaged s.ledger _).trans hbooked).renamed 0, hsummary⟩

theorem agents_settle (s : Collection) (n : Node) (t : Traffic) (now : Instant) :
    (s.settle n t now).2.agents = s.agents := by
  unfold settle
  split_ifs
  · rfl
  · rfl

section Pull

variable (settings : AgentSettings) (n : Node) (now : Instant) {bs : List TrafficBatch}

/-- All that a pull does to the ledger is to stage and commit, so it keeps what both of these keep. -/
theorem pull_keeps {P : Ledger → Prop} (hstage : ∀ l node day t, P l → P (l.stage node day t now).2)
    (hcommit : ∀ l b, P l → P (l.commit b).2) (h : P s.ledger) : P (s.pull settings n now).2.ledger := by
  unfold pull
  cases s.ledger.staged n.id with
  | error e => exact h
  | ok bs =>
    have hreplayed : P (s.ledger.commitAll bs).2 :=
      List.foldlRecOn (motive := fun (r : CommitSummary × Ledger) => P r.2) bs _ h fun r hr b _ => hcommit r.2 b hr
    dsimp only
    generalize s.ledger.commitAll bs = replayed at hreplayed
    obtain ⟨e | stats, agents⟩ := s.agents.call (Endpoint.ofNode n settings) (.stats true)
    · exact hreplayed
    · dsimp only
      unfold settle
      split_ifs
      · exact hreplayed
      · exact hcommit _ _ (hstage _ _ _ _ hreplayed)

theorem keyed_pull (h : s.ledger.Keyed) : (s.pull settings n now).2.ledger.Keyed :=
  pull_keeps settings n now (fun _ node day t hl => hl.stage node day t now) (fun _ b hl => hl.commit b) h

/-- A pull leaves nothing of the node staged, whatever its agent says. -/
theorem stagedRows_pull (h : s.ledger.stagedRows.Numbered) (hbs : s.ledger.staged n.id = .ok bs) :
    let r := s.pull settings n now
    r.2.ledger.stagedRows.rows = s.ledger.stagedRows.rows.filter (fun e => e.2.node ≠ n.id) ∧
      r.2.ledger.stagedRows.Numbered := by
  have herased := stagedRows_replay h hbs
  have hnumbered : (s.ledger.commitAll bs).2.stagedRows.Numbered := herased ▸ h.erase _
  have hrows : (s.ledger.commitAll bs).2.stagedRows.rows =
      s.ledger.stagedRows.rows.filter fun e => e.2.node ≠ n.id := by
    rw [herased, Table.rows_erase]
    exact List.filter_congr fun e _ => by simp [Bool.beq_eq_decide_eq]
  unfold pull
  rw [hbs]
  dsimp only
  generalize s.ledger.commitAll bs = replayed at hnumbered hrows
  obtain ⟨e | stats, agents⟩ := s.agents.call (Endpoint.ofNode n settings) (.stats true)
  · exact ⟨hrows, hnumbered⟩
  · obtain ⟨hkept, hstill⟩ := stagedRows_settle (s := ⟨replayed.2, agents⟩) hnumbered n (ratedTraffic n stats) now
    exact ⟨hkept.trans hrows, hstill⟩

/-- The agent is asked once for what it has counted. -/
theorem agents_pull (hbs : s.ledger.staged n.id = .ok bs) :
    (s.pull settings n now).2.agents = (s.agents.call (Endpoint.ofNode n settings) (.stats true)).2 := by
  unfold pull
  rw [hbs]
  dsimp only
  obtain ⟨e | stats, agents⟩ := s.agents.call (Endpoint.ofNode n settings) (.stats true)
  · rfl
  · exact agents_settle _ n _ now

/-- What a pull adds to the accounts, and what it answers. -/
theorem pull_booked (h : s.ledger.Keyed) (hbs : s.ledger.staged n.id = .ok bs) :
    let r := s.pull settings n now
    match (s.agents.call (Endpoint.ofNode n settings) (.stats true)).1 with
    | .error e => r.1 = .error (.agent e) ∧ Booked s.ledger bs r.2.ledger
    | .ok stats =>
      r.1 = .ok (CommitSummary.total ((bs ++ [n.drained stats now]).map (·.traffic.summary s.ledger))).wrapped ∧
        Booked s.ledger (bs ++ [n.drained stats now]) r.2.ledger := by
  obtain ⟨hbooked, hsummary⟩ := replay_booked h hbs
  have hnumbered : (s.ledger.commitAll bs).2.stagedRows.Numbered :=
    stagedRows_replay h.batches hbs ▸ h.batches.erase _
  unfold pull
  rw [hbs]
  dsimp only
  generalize s.ledger.commitAll bs = replayed at hbooked hsummary hnumbered
  obtain ⟨e | stats, agents⟩ := s.agents.call (Endpoint.ofNode n settings) (.stats true)
  · exact ⟨rfl, hbooked⟩
  · obtain ⟨hsettled, htold⟩ := settle_booked (s := ⟨replayed.2, agents⟩) (hbooked.keyed h hnumbered) n stats now
    refine ⟨?_, hbooked.trans hsettled⟩
    -- both summaries are of the ledger before the pull, since no user has come or gone
    dsimp only
    rw [htold, hsummary, hbooked.summary, ← CommitSummary.foldl_add, List.map_append, List.foldl_append]
    rfl

/-- The batches that a pull adds: what is staged, and then what the agent has counted if it answers. -/
def counted (s : Collection) : List TrafficBatch :=
  match s.ledger.staged n.id with
  | .error _ => []
  | .ok bs =>
    match (s.agents.call (Endpoint.ofNode n settings) (.stats true)).1 with
    | .error _ => bs
    | .ok stats => bs ++ [n.drained stats now]

theorem pull_of_illegible {e : StoreError} (h : s.ledger.staged n.id = .error e) :
    s.pull settings n now = (.error (.store e), s) := by
  rw [pull, h]

theorem booked_counted (h : s.ledger.Keyed) :
    Booked s.ledger (s.counted settings n now) (s.pull settings n now).2.ledger := by
  rw [counted]
  cases hbs : s.ledger.staged n.id with
  | error e =>
    rw [pull_of_illegible settings n now hbs]
    exact Booked.refl _
  | ok bs =>
    have hbooked := pull_booked settings n now h hbs
    dsimp only at hbooked ⊢
    generalize (s.agents.call (Endpoint.ofNode n settings) (.stats true)).1 = answer at hbooked ⊢
    cases answer with
    | error e => exact hbooked.2
    | ok stats => exact hbooked.2

theorem node_of_counted : ∀ b ∈ s.counted settings n now, b.node = n.id := by
  rw [counted]
  cases hbs : s.ledger.staged n.id with
  | error e => simp
  | ok bs =>
    have hnodes := (staged_yields s.ledger n.id bs hbs).2
    dsimp only
    cases (s.agents.call (Endpoint.ofNode n settings) (.stats true)).1 with
    | error e => exact hnodes
    | ok stats =>
      intro b hb
      rcases List.mem_append.1 hb with hb | hb
      · exact hnodes b hb
      · rw [List.mem_singleton.1 hb]
        rfl

end Pull

/-- **Traffic that is pulled counts once.** What is staged for the node is added batch by batch, each at
its own rate and day, and leaves the staged traffic; nothing else of that changes. If the agent does not
answer, nothing more is added, and its error is the answer. If it does, what it has counted is added as
one more batch, at the node's rate and of today, and the answer is the sum of the batches' summaries, if
that fits in 64 bits. -/
theorem pull_counts_once {bs : List TrafficBatch} (h : s.ledger.Keyed) (settings : AgentSettings) (n : Node)
    (now : Instant) (hbs : s.ledger.staged n.id = .ok bs) :
    let r := s.pull settings n now
    r.2.ledger.stagedRows.rows = s.ledger.stagedRows.rows.filter (fun e => e.2.node ≠ n.id) ∧
    match (s.agents.call (Endpoint.ofNode n settings) (.stats true)).1 with
    | .error e => r.1 = .error (.agent e) ∧ Booked s.ledger bs r.2.ledger
    | .ok stats =>
      let total := CommitSummary.total ((bs ++ [n.drained stats now]).map (·.traffic.summary s.ledger))
      Booked s.ledger (bs ++ [n.drained stats now]) r.2.ledger ∧
      ∃ summary, r.1 = .ok summary ∧
        (SixtyFourBits total.upload → SixtyFourBits total.download → summary = total) := by
  have hanswer := pull_booked settings n now h hbs
  refine ⟨(stagedRows_pull settings n now h.batches hbs).1, ?_⟩
  dsimp only at hanswer ⊢
  generalize (s.agents.call (Endpoint.ofNode n settings) (.stats true)).1 = asked at hanswer ⊢
  cases asked with
  | error e => exact hanswer
  | ok stats =>
    obtain ⟨hok, hbooked⟩ := hanswer
    exact ⟨hbooked, _, hok, CommitSummary.wrapped_eq_self⟩

/-- One user, of whom something is staged, and an agent that has counted more. -/
def sampleCollection : Collection where
  ledger := (Tally.sampleLedger.stage 1 ⟨2024, 2, 29⟩ Tally.sampleTraffic ⟨0⟩).2
  agents := ({} : Agents).set (Endpoint.ofNode Agents.sampleNode {}).baseUrl
    { stats := { uplinkBytes := 5, downlinkBytes := 7, users := [{ username := "u", uplinkBytes := 5 }] } }

theorem pull_counts_once_sampleCollection :
    let bs : List TrafficBatch := [⟨1, 1, ⟨2024, 2, 29⟩, Tally.sampleTraffic⟩]
    let n := Agents.sampleNode
    let r := sampleCollection.pull {} n ⟨0⟩
    sampleCollection.ledger.Keyed ∧ sampleCollection.ledger.staged 1 = .ok bs ∧
    r.2.ledger.stagedRows.rows = sampleCollection.ledger.stagedRows.rows.filter (fun e => e.2.node ≠ n.id) ∧
    match (sampleCollection.agents.call (Endpoint.ofNode n {}) (.stats true)).1 with
    | .error e => r.1 = .error (.agent e) ∧ Booked sampleCollection.ledger bs r.2.ledger
    | .ok stats =>
      let total := CommitSummary.total ((bs ++ [n.drained stats ⟨0⟩]).map (·.traffic.summary sampleCollection.ledger))
      Booked sampleCollection.ledger (bs ++ [n.drained stats ⟨0⟩]) r.2.ledger ∧
      ∃ summary, r.1 = .ok summary ∧
        (SixtyFourBits total.upload → SixtyFourBits total.download → summary = total) := by
  have hkeyed : sampleCollection.ledger.Keyed :=
    ⟨⟨by decide, by decide⟩, Table.Numbered.empty.insert _, List.nodup_nil⟩
  have hbs : sampleCollection.ledger.staged 1 = .ok [⟨1, 1, ⟨2024, 2, 29⟩, Tally.sampleTraffic⟩] :=
    eq_ok_of_toOption (by decide +kernel)
  exact ⟨hkeyed, hbs, pull_counts_once hkeyed {} Agents.sampleNode ⟨0⟩ hbs⟩

/-- Traffic that an agent counts as negative is told of, but does not go to the node's day. -/
theorem pull_negative_not_on_day :
    let agents := ({} : Agents).set (Endpoint.ofNode Agents.sampleNode {}).baseUrl { stats := { uplinkBytes := -5 } }
    let r := Collection.pull ⟨{}, agents⟩ {} Agents.sampleNode ⟨0⟩
    r.1.toOption = some { upload := -5 } ∧ r.2.ledger.nodeDay 1 (Instant.day ⟨0⟩) = (0, 0) := by
  decide +kernel

end Collection

end ProxyFleet

import ProxyFleet.Proofs.Nodes.Configs

/-!
# What the history says of a node

The entries of a node are only added to, and as long as none is added the row of the node stays. So the
next entry, whatever call it comes from, says of the node before it what the row said all along.

* `Roster.entries` : the entries of a node, oldest first;
* `Roster.Follows`, `Roster.follows_call` : what a call does to the row and the entries of a node;
* `Roster.run_next_entry` : the next entry says what was stored;
* `Roster.answer?`, `Roster.Answered`, `Roster.call_answered` : what is left of a node that a call answers
  with;
* `Roster.answer_stored_iff` : when the answer, the entry and the next entry agree with what is stored.
-/

namespace ProxyFleet

set_option autoImplicit false

/-- A call that asks for no rate but one that counts traffic, or that changes no node. -/
def RosterCall.RateCounts : RosterCall → Prop
  | update _ _ change => ∀ rate ∈ change.rate, Counts rate
  | create _ _ | delete _ | reopen _ _ | ports _ => True

/-- The nodes are the same but for their times. -/
def Node.SameButTimes (n m : Node) : Prop := m = { n with createdAt := m.createdAt, updatedAt := m.updatedAt }

namespace Node

variable {n m : Node}

theorem SameButTimes.params (h : n.SameButTimes m) : m.params = n.params := by rw [h]

theorem SameButTimes.snapshot (h : n.SameButTimes m) : m.snapshot = n.snapshot := by
  rw [h]
  rfl

/-- A node that is stored with another rate is the same only if it counts no traffic otherwise. -/
theorem sameButTimes_iff (h : ({ n with rate := normalizeRate n.rate } : Node).SameButTimes m) :
    n.SameButTimes m ↔ Counts n.rate := by
  rw [← normalizeRate_eq_self_iff]
  constructor
  · intro hsame
    have hstored : m.rate = normalizeRate n.rate := by rw [h]
    have hrate : m.rate = n.rate := by rw [hsame]
    exact hstored.symm.trans hrate
  · intro hrate
    rwa [hrate] at h

end Node

namespace Roster

variable {s : Roster} {now : Instant} {id : Int}

/-- The entries of a node in the history, oldest first. -/
def entries (s : Roster) (id : Int) : List HistoryRow := (s.history.select (·.node == id)).map (·.2)

/-! ## One call -/

theorem entries_record (s : Roster) (id' : Int) (action : NodeAction) (old new : Option String)
    (error : Option NodeError) (now : Instant) :
    ∃ entry : HistoryRow, entry.node = id' ∧ entry.oldConfig = old ∧ entry.newConfig = new ∧
      ∀ id, (s.record id' action old new error now).entries id =
        s.entries id ++ (if id' = id then [entry] else []) := by
  refine ⟨⟨id', action.name, old, new, (error.map (·.message)).isNone, error.map (·.message), now.stamp⟩,
    rfl, rfl, rfl, fun id => ?_⟩
  unfold entries record HistoryTable.append Table.select
  rw [Table.rows_insert, List.filter_append, List.map_append]
  by_cases hid : id' = id
  · simp [hid]
  · simp [hid]

theorem entries_record_of_ne {id' : Int} (hne : id' ≠ id) (s : Roster) (action : NodeAction) (old new : Option String)
    (error : Option NodeError) (now : Instant) : (s.record id' action old new error now).entries id = s.entries id := by
  obtain ⟨entry, -, -, -, hentries⟩ := entries_record s id' action old new error now
  rw [hentries id, if_neg hne, List.append_nil]

/-- Recording an attempt on the node adds one entry, with what is recorded. -/
theorem entries_record_self (s : Roster) (id : Int) (action : NodeAction) (old new : Option String)
    (error : Option NodeError) (now : Instant) :
    ∃ entry, entry.oldConfig = old ∧ entry.newConfig = new ∧
      (s.record id action old new error now).entries id = s.entries id ++ [entry] := by
  obtain ⟨entry, -, hold, hnew, hentries⟩ := entries_record s id action old new error now
  exact ⟨entry, hold, hnew, by rw [hentries id, if_pos rfl]⟩

/-- From one state to the next the row and the entries of a node stay, or one entry is added that says of
the node before what was stored. -/
inductive Follows (s : Roster) (now : Instant) (id : Int) (row : NodeRow) (s' : Roster) : Prop where
  | stays (entries : s'.entries id = s.entries id) (get : s'.nodes.get? id = some row)
  | recorded (old : Node) (entry : HistoryRow) (find : s.find id now = .ok old)
    (told : entry.oldConfig = some old.snapshot) (entries : s'.entries id = s.entries id ++ [entry])

section Calls

variable {row : NodeRow} (hs : s.Sound) (hrow : s.nodes.get? id = some row)

include hs hrow

/-- What becomes of a node that is added is recorded for no node that is there already. -/
theorem Enrolls.follows {r : NodeRequest} {result : Except NodeError Node × Roster} (h : Enrolls s r now result) :
    Follows s now id row result.2 := by
  have hid := hs.nodes.pos _ (Table.mem_rows_of_get? hrow)
  have hnext := hs.nodes.below _ (Table.mem_rows_of_get? hrow)
  dsimp only at hid hnext
  cases h with
  | refused => exact .stays rfl hrow
  | portless e ports =>
    have hne : pendingOwner ≠ id := by
      unfold pendingOwner
      omega
    exact .stays (entries_record_of_ne hne { s with ports } .create none none (some e) now) hrow
  | undone e n id_eq ports =>
    have hne : n.id ≠ id := by omega
    have hkept := (hs.nodes.insert (NodeRow.ofNode n)).get?_eraseId_of_ne hne.symm (hs.nodes.get?_insert_of_some hrow _)
    exact .stays (entries_record_of_ne hne _ .create none _ (some e) now) hkept
  | enrolled n names params requested valid ports =>
    have hne : n.id ≠ id := by
      rw [requested]
      show s.nodes.nextId ≠ id
      omega
    exact .stays (entries_record_of_ne hne _ .create none _ none now) (hs.nodes.get?_insert_of_some hrow _)

theorem Revises.follows {id' : Int} {c : NodeChange} {result : Except NodeError Node × Roster}
    (h : Revises s id' c now result) : Follows s now id row result.2 := by
  cases h with
  | refused => exact .stays rfl hrow
  | failed e old find new ports =>
    by_cases hsame : id' = id
    · subst hsame
      obtain ⟨entry, hold, -, hentries⟩ :=
        entries_record_self { s with ports } id' .update (some old.snapshot) new (some e) now
      exact .recorded old entry find hold hentries
    · exact .stays (entries_record_of_ne hsame _ .update _ new (some e) now) hrow
  | revised n old find names params changed valid ports =>
    by_cases hsame : id' = id
    · subst hsame
      obtain ⟨entry, hold, -, hentries⟩ := entries_record_self
        { s with ports, nodes := s.nodes.write n } id' .update (some old.snapshot) (some n.snapshot) none now
      exact .recorded old entry find hold hentries
    · have hn : n.id = id' := by
        rw [changed]
        exact (find_eq_ok find).1
      have hkept := hs.nodes.get?_modifyId_of_ne (by omega : id ≠ n.id) hrow
      exact .stays (entries_record_of_ne hsame _ .update _ _ none now) (hkept _)

theorem Removes.follows {id' : Int} {result : Except NodeError (List UInt16) × Roster} (h : Removes s id' now result) :
    Follows s now id row result.2 := by
  cases h with
  | refused => exact .stays rfl hrow
  | removed released old find ports =>
    by_cases hsame : id' = id
    · subst hsame
      obtain ⟨entry, hold, -, hentries⟩ := entries_record_self
        { s with ports, nodes := s.nodes.eraseId id' } id' .delete (some old.snapshot) none none now
      exact .recorded old entry find hold hentries
    · have hkept := hs.nodes.get?_eraseId_of_ne (Ne.symm hsame) hrow
      exact .stays (entries_record_of_ne hsame _ .delete _ none none now) hkept

theorem follows_call (now : Instant) (c : RosterCall) : Follows s now id row (s.call now c) := by
  cases c with
  | create refused r => exact (create_enrolls s refused r now).follows hs hrow
  | update refused id' change => exact (update_revises s refused id' change now).follows hs hrow
  | delete id' => exact (delete_removes s id' now).follows hs hrow
  | reopen settings range => exact .stays rfl hrow
  | ports c => exact .stays rfl hrow

end Calls

/-! ## Runs -/

theorem history_call (s : Roster) (now : Instant) (c : RosterCall) : (s.call now c).history = s.history ∨
    ∃ id action old new error, (s.call now c).history = (s.record id action old new error now).history := by
  cases c with
  | create refused r =>
    rw [call]
    have henrolls := create_enrolls s refused r now
    generalize s.create refused r now = result at henrolls
    cases henrolls with
    | refused => exact .inl rfl
    | portless | undone | enrolled => exact .inr ⟨_, _, _, _, _, rfl⟩
  | update refused id change =>
    rw [call]
    have hrevises := update_revises s refused id change now
    generalize s.update refused id change now = result at hrevises
    cases hrevises with
    | refused => exact .inl rfl
    | failed | revised => exact .inr ⟨_, _, _, _, _, rfl⟩
  | delete id =>
    rw [call]
    have hremoves := delete_removes s id now
    generalize s.delete id now = result at hremoves
    cases hremoves with
    | refused => exact .inl rfl
    | removed => exact .inr ⟨_, _, _, _, _, rfl⟩
  | reopen settings range => exact .inl rfl
  | ports c => exact .inl rfl

/-- No entry is changed or taken back. -/
theorem entries_prefix_call (s : Roster) (now : Instant) (c : RosterCall) (id : Int) :
    s.entries id <+: (s.call now c).entries id := by
  unfold entries
  rcases history_call s now c with heq | ⟨id', action, old, new, error, heq⟩
  · exact ⟨[], by rw [heq, List.append_nil]⟩
  · rw [heq]
    obtain ⟨entry, -, -, -, hentries⟩ := entries_record s id' action old new error now
    exact ⟨_, (hentries id).symm⟩

theorem entries_prefix_run (s : Roster) (calls : List (Instant × RosterCall)) (id : Int) :
    s.entries id <+: (s.run calls).entries id := by
  induction calls generalizing s with
  | nil => exact List.prefix_rfl
  | cons c calls ih => exact (entries_prefix_call s c.1 c.2 id).trans (ih (s.call c.1 c.2))

/-- The next entry of a node that is stored says, as the node before it, what is read from its row. -/
theorem run_next_entry (hs : s.Sound) {row : NodeRow} (hrow : s.nodes.get? id = some row) {snapshot : String}
    (hsnapshot : ∀ now n, row.node now id = .ok n → n.snapshot = snapshot) (calls : List (Instant × RosterCall))
    {next : HistoryRow} (hnext : ((s.run calls).entries id)[(s.entries id).length]? = some next) :
    next.oldConfig = some snapshot := by
  induction calls generalizing s with
  | nil => exact absurd hnext (by simp [run])
  | cons c calls ih =>
    cases follows_call hs hrow c.1 c.2 with
    | stays entries get => exact ih (hs.call c.1 c.2) get (entries ▸ hnext)
    | recorded old entry find told entries =>
      -- the entry that this call adds is the next one, whatever comes after it
      obtain ⟨more, hmore⟩ := entries_prefix_run (s.call c.1 c.2) calls id
      have hrun : (s.run (c :: calls)).entries id = s.entries id ++ ([entry] ++ more) := by
        rw [← List.append_assoc, ← entries, hmore]
        rfl
      have hentry : entry = next := by simpa [hrun] using hnext
      have hold : row.node c.1 id = .ok old := (find_iff_node hrow).1 find
      rw [← hentry, told, hsnapshot c.1 old hold]

/-! ## What a call answers -/

/-- The node that a call answers with, if it is one that gives a node and succeeds. -/
def answer? (s : Roster) (now : Instant) : RosterCall → Option Node
  | .create refused request => (s.create refused request now).1.toOption
  | .update refused id change => (s.update refused id change now).1.toOption
  | .delete _ | .reopen _ _ | .ports _ => none

/-- What is left of a node that a call answered with: its row, and an entry with its text. -/
structure Answered (s : Roster) (n : Node) (s' : Roster) : Prop where
  sound : n.Sound
  row : ∃ created, s'.nodes.get? n.id = some { NodeRow.ofNode n with createdAt := created }
  entry : ∃ entry, entry.newConfig = some n.snapshot ∧ s'.entries n.id = s.entries n.id ++ [entry]

theorem Enrolls.answered (hs : s.Sound) {r : NodeRequest} (hgroups : ∀ g ∈ r.groups, SixtyFourBits g) {n : Node}
    {s' : Roster} (h : Enrolls s r now (.ok n, s')) : Answered s n s' ∧ Counts n.rate := by
  refine ⟨⟨h.sound hgroups, ?_, ?_⟩, ?_⟩
  all_goals
    cases h with
    | enrolled _ names params requested valid ports => ?_
  · have hid : n.id = s.nodes.nextId := by rw [requested]; rfl
    exact ⟨n.createdAt.stamp, hid ▸ hs.nodes.get?_insert_self _⟩
  · obtain ⟨entry, -, hnew, hentries⟩ := entries_record_self
      { s with ports, nodes := s.nodes.insert (NodeRow.ofNode n) } n.id .create none (some n.snapshot) none now
    exact ⟨entry, hnew, hentries⟩
  · rw [requested]
    exact counts_normalizeRate _

/-- The rate of a node that is stored counts traffic. -/
theorem Stores.counts (h : s.Stores) {n : Node} (hfind : s.find id now = .ok n) : Counts n.rate := by
  obtain ⟨-, row, hrow, -⟩ := find_eq_ok hfind
  obtain ⟨m, hm, -, -, hdescribes⟩ := (h _ (Table.mem_rows_of_get? hrow)).exists_describes now id
  obtain rfl : m = n := Except.ok.inj (hm.symm.trans ((find_iff_node hrow).1 hfind))
  exact hdescribes.counts

theorem Revises.answered (hs : s.Sound) (hst : s.Stores) {c : NodeChange}
    (hgroups : ∀ groups ∈ c.groups, ∀ g ∈ groups, SixtyFourBits g) {n : Node} {s' : Roster}
    (h : Revises s id c now (.ok n, s')) :
    Answered s n s' ∧ (Counts n.rate ↔ ∀ rate ∈ c.rate, Counts rate) := by
  refine ⟨⟨h.sound hst hgroups, ?_, ?_⟩, ?_⟩
  all_goals
    cases h with
    | revised _ old find names params changed valid ports => ?_
    have hid : n.id = id := by
      rw [changed]
      exact (find_eq_ok find).1
  · obtain ⟨-, row, hrow, -⟩ := find_eq_ok find
    exact ⟨row.createdAt, hs.nodes.get?_modifyId_self (hid ▸ hrow) _⟩
  · obtain ⟨entry, -, hnew, hentries⟩ := entries_record_self
      { s with ports, nodes := s.nodes.write n } id .update (some old.snapshot) (some n.snapshot) none now
    exact ⟨entry, hnew, hid ▸ hentries⟩
  · have hrate : n.rate = c.rate.getD old.rate := by rw [changed]; rfl
    rw [hrate]
    -- a rate that is not asked for stays, and the stored one counts
    cases c.rate with
    | none => simpa using hst.counts find
    | some rate => simp

theorem call_answered (hs : s.Sound) (hst : s.Stores) {c : RosterCall} (hc : c.GroupsFit) {n : Node}
    (hn : s.answer? now c = some n) : Answered s n (s.call now c) ∧ (Counts n.rate ↔ c.RateCounts) := by
  cases c with
  | create refused r =>
    have hresult : s.create refused r now = (.ok n, (s.create refused r now).2) :=
      Prod.fst_eq_iff.1 (eq_ok_of_toOption hn)
    have henrolls := create_enrolls s refused r now
    rw [hresult] at henrolls
    obtain ⟨hanswered, hcounts⟩ := henrolls.answered hs hc
    exact ⟨hanswered, iff_of_true hcounts trivial⟩
  | update refused id' change =>
    have hresult : s.update refused id' change now = (.ok n, (s.update refused id' change now).2) :=
      Prod.fst_eq_iff.1 (eq_ok_of_toOption hn)
    have hrevises := update_revises s refused id' change now
    rw [hresult] at hrevises
    exact hrevises.answered hs hst hc
  | delete id' => cases hn
  | reopen settings range => cases hn
  | ports c => cases hn

/-- What is read back of the node: its rate is one that counts traffic, the rest but the times is as it was. -/
theorem Answered.find {n : Node} {s' : Roster} (h : Answered s n s') (later : Instant) :
    ∃ m, s'.find n.id later = .ok m ∧ ({ n with rate := normalizeRate n.rate } : Node).SameButTimes m := by
  obtain ⟨created, hrow⟩ := h.row
  have hm := NodeRow.node_ofNode h.sound created later n.id
  generalize timeColumn later created = createdAt at hm
  generalize timeColumn later n.updatedAt.stamp = updatedAt at hm
  exact ⟨{ n with rate := normalizeRate n.rate, createdAt, updatedAt }, (find_iff_node hrow).2 hm, rfl⟩

/-- A node that is stored can be removed, and the entry of that says what was stored. -/
theorem exists_next_entry {m : Node} (hfind : s.find id now = .ok m) :
    ∃ entry, entry.oldConfig = some m.snapshot ∧ (s.run [(now, .delete id)]).entries id = s.entries id ++ [entry] := by
  obtain ⟨entry, hold, -, hentries⟩ := entries_record_self
    { s with ports := (s.ports.releaseOwner id now).2, nodes := s.nodes.eraseId id } id .delete (some m.snapshot)
    none none now
  refine ⟨entry, hold, ?_⟩
  show (s.delete id now).2.entries id = _
  rw [delete, hfind]
  exact hentries

/-- **What is answered and recorded is what was stored, exactly if the rate counts.** Let a call after any
others, with groups of 64 bits, add or change a node and answer with it. Then the node is stored, and one
entry is added to its history. The answer is the stored node but for its times, the entry says what was
stored, and the next entry, whatever is called next, says of the node before it what this one says, each
exactly if no rate was asked for that does not count traffic. -/
theorem answer_stored_iff (settings : EngineSettings) (range : PortSettings) (calls : List (Instant × RosterCall))
    (hcalls : ∀ c ∈ calls, c.2.GroupsFit) (now : Instant) (c : RosterCall) (hc : c.GroupsFit) (n : Node)
    (hn : ((empty settings range).run calls).answer? now c = some n) :
    let s := (empty settings range).run calls
    let s' := s.call now c
    ∃ entry, s'.entries n.id = s.entries n.id ++ [entry] ∧
      (∀ later, ∃ m, s'.find n.id later = .ok m ∧ (n.SameButTimes m ↔ c.RateCounts) ∧
        (entry.newConfig = some m.snapshot ↔ c.RateCounts)) ∧
      ((∀ rest next, ((s'.run rest).entries n.id)[(s'.entries n.id).length]? = some next →
        next.oldConfig = entry.newConfig) ↔ c.RateCounts) := by
  intro s s'
  have hs : s.Sound := (Sound.empty settings range).run calls
  have hst : s.Stores := (Stores.empty settings range).run (Sound.empty settings range) hcalls
  obtain ⟨hanswered, hcounts⟩ := call_answered hs hst hc hn
  obtain ⟨entry, hnew, hentries⟩ := hanswered.entry
  have htext := Node.snapshot_normalizeRate_eq_iff n
  refine ⟨entry, hentries, fun later => ?_, ?_⟩
  · obtain ⟨m, hm, hsame⟩ := hanswered.find later
    refine ⟨m, hm, (Node.sameButTimes_iff hsame).trans hcounts, ?_⟩
    rw [hnew, hsame.snapshot, Option.some_inj, htext, hcounts]
  · obtain ⟨created, hrow⟩ := hanswered.row
    have hs' : s'.Sound := hs.call now c
    have hread : ∀ at' m, NodeRow.node at' n.id { NodeRow.ofNode n with createdAt := created } = .ok m →
        m.snapshot = { n with rate := normalizeRate n.rate }.snapshot := by
      intro at' m hm
      rw [NodeRow.node_ofNode hanswered.sound] at hm
      cases hm
      rfl
    rw [← hcounts, ← htext, hnew]
    constructor
    · -- the node can be removed next, and then the entry says what is stored
      intro hall
      obtain ⟨m, hm, hstored⟩ := hanswered.find now
      obtain ⟨next, hold, hrun⟩ := exists_next_entry hm
      have hnext : ((s'.run [(now, .delete n.id)]).entries n.id)[(s'.entries n.id).length]? = some next := by
        rw [hrun, List.getElem?_concat_length]
      have hsame := hall _ next hnext
      rw [hold, hstored.snapshot] at hsame
      exact (Option.some.inj hsame).symm
    · intro heq rest next hnext
      rw [run_next_entry hs' hrow hread rest hnext, heq]

/-- A node is added. -/
def sampleAdded : List (Instant × RosterCall) := [(⟨0⟩, .create (fun _ => false) (sampleRequest "a"))]

/-- A rate that counts no traffic is asked for it. -/
def sampleRate : RosterCall := .update (fun _ => false) 1 { rate := some Binary64.zero }

theorem answer_stored_iff_sampleRate :
    let s := (empty {} sampleRange).run sampleAdded
    let s' := s.call ⟨0⟩ sampleRate
    (∀ c ∈ sampleAdded, c.2.GroupsFit) ∧ sampleRate.GroupsFit ∧
    ∃ n, s.answer? ⟨0⟩ sampleRate = some n ∧ ∃ entry, s'.entries n.id = s.entries n.id ++ [entry] ∧
      (∀ later, ∃ m, s'.find n.id later = .ok m ∧ (n.SameButTimes m ↔ sampleRate.RateCounts) ∧
        (entry.newConfig = some m.snapshot ↔ sampleRate.RateCounts)) ∧
      ((∀ rest next, ((s'.run rest).entries n.id)[(s'.entries n.id).length]? = some next →
        next.oldConfig = entry.newConfig) ↔ sampleRate.RateCounts) := by
  have hcalls : ∀ c ∈ sampleAdded, c.2.GroupsFit := by
    simp [sampleAdded, RosterCall.GroupsFit, sampleRequest]
  have hrate : sampleRate.GroupsFit := by simp [sampleRate, RosterCall.GroupsFit]
  have hsome : (((empty {} sampleRange).run sampleAdded).answer? ⟨0⟩ sampleRate).isSome = true := by decide +kernel
  obtain ⟨n, hn⟩ := Option.isSome_iff_exists.1 hsome
  exact ⟨hcalls, hrate, n, hn, answer_stored_iff {} sampleRange sampleAdded hcalls ⟨0⟩ sampleRate hrate n hn⟩

/-- The answer has the rate that was asked for, zero, and the stored node has another. The entry of the
change says what was answered, and the next one, of the removal, says what was stored. -/
theorem update_answers_unstored_rate :
    let s := (empty {} sampleRange).run sampleAdded
    let s' := s.call ⟨0⟩ sampleRate
    let entry (s : Roster) := (s.entries 1).getLast?
    Binary64.zero.isFinite = true ∧
    (s.answer? ⟨0⟩ sampleRate).map (·.rate) = some Binary64.zero ∧
    (s'.find 1 ⟨0⟩).toOption.map (·.rate) = some Binary64.one ∧
    (entry s').bind (·.newConfig) = (s.answer? ⟨0⟩ sampleRate).map (·.snapshot) ∧
    (entry s').bind (·.newConfig) ≠ (s'.find 1 ⟨0⟩).toOption.map (·.snapshot) ∧
    (entry (s'.call ⟨0⟩ (.delete 1))).bind (·.oldConfig) ≠ (entry s').bind (·.newConfig) := by
  decide +kernel

end Roster

end ProxyFleet

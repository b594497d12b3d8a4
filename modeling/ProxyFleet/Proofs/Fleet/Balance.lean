import ProxyFleet.Proofs.Fleet.Run
import ProxyFleet.Proofs.Traffic.Pull

/-!
# Users and their days agree

What a user has used is kept twice, in the user's row and split by days and rates. Each entry of a batch
goes to both or to neither, so the two never drift apart.

* `Ledger.Balanced` : what every user has used is the sum of the user's days;
* `Balanced.addEntry`, `Balanced.commit`, `Balanced.insertUser` : every step keeps this;
* `Keyed.insertUser` : new users keep unique what the tables should;
* `Fleet.run_ledger`, `Fleet.run_ledger_sound` : what every run keeps of the ledger;
* `Fleet.run_balanced` : after every run, users and their days agree.
-/

namespace ProxyFleet

set_option autoImplicit false

/-- A user who is added is a new row, of one who has used nothing and whose uuid no other has, with the quota
that is asked for and no ban. -/
theorem UserTable.exists_insert_of_add {t : UserTable} {uuid token : String} {draft : UserDraft} {now : Instant}
    {added : User × UserTable} (h : t.add uuid token draft now = .ok added) :
    ∃ row : UserRow, row.total = 0 ∧ row.uuid ∉ t.rows.map (·.2.uuid) ∧ added.2 = t.insert row ∧
      row.quota = draft.quota ∧ row.banned = false := by
  unfold add at h
  dsimp only at h
  split_ifs at h with huuid
  cases h
  refine ⟨_, rfl, fun hmem => huuid ?_, rfl, rfl, rfl⟩
  obtain ⟨e, he, heq⟩ := List.mem_map.1 hmem
  exact List.any_eq_true.2 ⟨e, he, beq_iff_eq.2 heq⟩

namespace Ledger

variable {l : Ledger}

/-- What every user has used is the sum of the user's days. For this to last, no day may have two rows,
nor be of an id that no user has got yet. -/
structure Balanced (l : Ledger) : Prop where
  users : l.users.Numbered
  days : (dayKeys l.userDayRows).Nodup
  known : ∀ k ∈ dayKeys l.userDayRows, k.user < l.users.nextId
  balanced : ∀ e ∈ l.users.rows, e.2.total = daySum l.userDayRows (·.user == e.1)

theorem mem_of_userId? {uuid : String} {id : Int} (h : l.userId? uuid = some id) :
    ∃ e ∈ l.users.rows, e.1 = id := by
  obtain ⟨e, he, hid⟩ := Option.map_eq_some_iff.1 h
  exact ⟨e, (List.mem_filter.1 (List.mem_of_mem_head? he)).1, hid⟩

namespace Balanced

theorem empty : Balanced {} :=
  ⟨Table.Numbered.empty, List.nodup_nil, by simp [dayKeys], by simp⟩

theorem addEntry (h : l.Balanced) (rate : Binary64) (day : Day) (summary : CommitSummary) (u : UserTraffic) :
    (Ledger.addEntry rate day (summary, l) u).2.Balanced := by
  have hentered := addEntry_entered l rate day summary u
  generalize Ledger.addEntry rate day (summary, l) u = r at hentered
  cases hentered with
  | nothing zero => exact h
  | skipped counts unknown => exact h
  | added id counts known =>
    refine ⟨h.users.modifyId id (·.credit u.total), nodup_addUserDay h.days _ _ _ _ _, fun k hk => ?_, fun e he => ?_⟩
    · dsimp only at hk
      rw [dayKeys_addUserDay, List.mem_append] at hk
      rcases hk with hk | hk
      · exact h.known k hk
      · obtain ⟨e, he, rfl⟩ := mem_of_userId? known
        split_ifs at hk
        · cases hk
        · rw [List.mem_singleton.1 hk]
          exact h.users.below e he
    · -- the user's row and the user's days grow by the same
      dsimp only at he ⊢
      rw [Table.rows_modifyId, List.mem_map] at he
      obtain ⟨e, he, rfl⟩ := he
      rw [daySum_addUserDay h.days]
      by_cases hid : e.1 = id
      · rw [if_pos hid]
        dsimp only
        rw [UserRow.total_credit, h.balanced e he]
        simp [DayKey.of, hid, UserTraffic.total]
      · rw [if_neg hid, h.balanced e he]
        simp [DayKey.of, Ne.symm hid]

/-- What is staged and the days of nodes have nothing to do with it. -/
theorem others (h : l.Balanced) (staged : Table StagedRow) (nodeDays : Table NodeDayRow) :
    Balanced { l with stagedRows := staged, nodeDayRows := nodeDays } :=
  ⟨h.users, h.days, h.known, h.balanced⟩

theorem apply (h : l.Balanced) (node : Int) (day : Day) (t : Traffic) : (l.apply node day t).2.Balanced := by
  have hfold : (t.users.foldl (Ledger.addEntry t.rate day) ({}, l)).2.Balanced :=
    List.foldlRecOn (motive := fun (s : CommitSummary × Ledger) => s.2.Balanced) t.users _ h
      fun s hs u _ => hs.addEntry t.rate day s.1 u
  exact hfold.others _ _

theorem commit (h : l.Balanced) (b : TrafficBatch) : (l.commit b).2.Balanced := by
  unfold Ledger.commit
  split_ifs
  · exact (h.others (l.stagedRows.eraseId b.id) l.nodeDayRows).apply b.node b.day b.traffic
  · exact h

theorem commitAll (h : l.Balanced) (bs : List TrafficBatch) : (l.commitAll bs).2.Balanced :=
  List.foldlRecOn (motive := fun (s : CommitSummary × Ledger) => s.2.Balanced) bs _ h
    fun _ hs b _ => hs.commit b

theorem stage (h : l.Balanced) (node : Int) (day : Day) (t : Traffic) (now : Instant) :
    (l.stage node day t now).2.Balanced := h.others _ l.nodeDayRows

/-- A user who is new has used nothing and has no days. -/
theorem insertUser (h : l.Balanced) {row : UserRow} (hunused : row.total = 0) :
    Balanced { l with users := l.users.insert row } := by
  refine ⟨h.users.insert _, h.days, fun k hk => Int.lt_trans (h.known k hk) (Int.lt_succ _), fun e he => ?_⟩
  rcases List.mem_append.1 he with he | he
  · exact h.balanced e he
  · rw [List.mem_singleton.1 he, hunused]
    -- no day is of an id that nobody has got yet
    have hnone : l.userDayRows.rows.filter (fun e => e.2.key.user == l.users.nextId) = [] := by
      rw [List.filter_eq_nil_iff]
      intro d hd
      have hlt := h.known d.2.key (List.mem_map.2 ⟨d, hd, rfl⟩)
      simpa using Int.ne_of_lt hlt
    rw [daySum, hnone]
    rfl

end Balanced

/-! ## What the tables keep unique -/

theorem Keyed.empty : Keyed {} :=
  ⟨⟨List.nodup_nil, List.nodup_nil⟩, Table.Numbered.empty, List.nodup_nil⟩

/-- A user who is new gets an id that no other has. -/
theorem Keyed.insertUser (h : l.Keyed) (hnumbered : l.users.Numbered) {row : UserRow}
    (hnew : row.uuid ∉ l.users.rows.map (·.2.uuid)) : Keyed { l with users := l.users.insert row } := by
  refine ⟨⟨?_, ?_⟩, h.batches, h.days⟩
  · exact List.pairwise_map.2 ((hnumbered.insert _).ascending.imp fun hlt => Int.ne_of_lt hlt)
  · rw [Table.rows_insert, List.map_append]
    refine List.nodup_append.2 ⟨h.distinct.uuids, List.nodup_singleton _, ?_⟩
    rintro uuid hold _ hother rfl
    obtain rfl : uuid = row.uuid := List.mem_singleton.1 hother
    exact hnew hold

end Ledger

namespace Fleet

/-- What is kept by new users, by staging and by committing, every run keeps of the ledger. -/
theorem run_ledger {P : Ledger → Prop}
    (hinsert : ∀ l row, row.total = 0 → row.uuid ∉ l.users.rows.map (·.2.uuid) → P l →
      P { l with users := l.users.insert row })
    (hstage : ∀ l node day t now, P l → P (l.stage node day t now).2)
    (hcommit : ∀ l b, P l → P (l.commit b).2) {s : Fleet} (h : P s.ledger)
    (calls : List (Instant × FleetCall)) : P (s.run calls).ledger := by
  have hpull : ∀ (s : Fleet) (n : Node) (now : Instant), P s.ledger → P (s.pullNode n now).2.ledger :=
    fun s n now hs => Collection.pull_keeps (s := ⟨s.ledger, s.agents⟩) s.settings.agents n now
      (fun l node day t => hstage l node day t now) hcommit hs
  refine run_keeps (P := fun s => P s.ledger) (fun s c _ hs => ?_) h
  obtain ⟨now, c⟩ := c
  cases c with
  | roster c => exact hs
  | addUser uuid token draft =>
    dsimp only [call]
    cases hadd : s.ledger.users.add uuid token draft now with
    | error e => exact hs
    | ok added =>
      obtain ⟨row, hunused, hnew, hrows, -⟩ := UserTable.exists_insert_of_add hadd
      dsimp only
      rw [hrows]
      exact hinsert _ row hunused hnew hs
  | stage node day traffic => exact hstage _ _ _ _ _ hs
  | commit b => exact hcommit _ _ hs
  | pull n => exact hpull s n now hs
  | pullAll => exact forEachNode_keeps (P := fun s => P s.ledger) (fun s n => hpull s n now) now hs
  | agents agents => exact hs

/-- After any run, users and their days agree, and ids, uuids and days are unique where they should be. -/
theorem run_ledger_sound (settings : Settings) (calls : List (Instant × FleetCall)) :
    let l := ((empty settings).run calls).ledger
    l.Balanced ∧ l.Keyed :=
  run_ledger (P := fun l => l.Balanced ∧ l.Keyed)
    (fun _ _ hunused hnew h => ⟨h.1.insertUser hunused, h.2.insertUser h.1.users hnew⟩)
    (fun _ node day t now h => ⟨h.1.stage node day t now, h.2.stage node day t now⟩)
    (fun _ b h => ⟨h.1.commit b, h.2.commit b⟩) ⟨Ledger.Balanced.empty, Ledger.Keyed.empty⟩ calls

/-- **Users and their days agree.** After any run, what a user has used is the sum of the rows of the
user's days, and of the days that are read for the user. -/
theorem run_balanced (settings : Settings) (calls : List (Instant × FleetCall)) :
    let l := ((empty settings).run calls).ledger
    ∀ e ∈ l.users.rows,
      e.2.total = ((l.userDayRows.rows.filter (·.2.user == e.1)).map (·.2.amount)).sum ∧
      Yields (l.userDays e.1) fun days => (days.map (·.amount)).sum = e.2.total := by
  intro l e he
  obtain ⟨h, -⟩ := run_ledger_sound settings calls
  refine ⟨h.balanced e he, fun days hdays => ?_⟩
  rw [h.balanced e he]
  exact l.daySum_userDays e.1 days hdays

/-- Counters below zero, a user twice in one batch, one who is unknown, and a batch that is committed
again: both records have the same. -/
example :
    let b : TrafficBatch := ⟨1, 7, ⟨2024, 2, 29⟩, ⟨"vless", .one, 0, 0, [⟨"u", 10, -3⟩, ⟨"x", 1, 1⟩, ⟨"u", -4, 0⟩]⟩⟩
    let l := ((empty {}).run
      ([.addUser "u" "t" {}, .stage 7 b.day b.traffic, .commit b, .commit b].map (⟨0⟩, ·))).ledger
    l.users.rows.map (·.2.total) = [(6, -3)] ∧ l.userDayRows.rows.map (·.2.amount) = [(6, -3)] := by
  decide +kernel

end Fleet

end ProxyFleet

import ProxyFleet.Proofs.Traffic.Codec
import ProxyFleet.Proofs.Traffic.Days

/-!
# What batches add to the accounts

Account is kept of what a user has used, of what was counted of a user on a day at a rate, and of what
was counted on a node on a day. Batches only ever add to these, each its own share, and which account a
share goes to depends on nothing but the uuids of the users, which stay.

* `Account`, `Ledger.balance`, `TrafficBatch.share` : accounts, what is on them, and what a batch adds;
* `Ledger.Keyed` : what the tables keep unique;
* `Ledger.Entered`, `addEntry_entered` : what becomes of one entry of a batch;
* `Ledger.Booked` : one ledger is another with batches added (`Booked.refl`, `Booked.trans`);
* `apply_booked` : applying a batch adds it.
-/

namespace ProxyFleet

set_option autoImplicit false

/-- Something of which account is kept. -/
inductive Account where
  | user (id : Int)
  | userDay (key : DayKey)
  | nodeDay (node : Int) (day : Day)

namespace Ledger

variable {l l' : Ledger}

/-! ## Accounts -/

/-- Upload and download on an account. -/
def balance (l : Ledger) : Account → Int × Int
  | .user id => ((l.users.get? id).map (·.total)).getD 0
  | .userDay key => daySum l.userDayRows (· == key)
  | .nodeDay node day => l.nodeDay node day

/-- The uuid of the user of an id. -/
def uuid? (l : Ledger) (id : Int) : Option String := (l.users.get? id).map (·.uuid)

/-- The rows of the days of a node, in order. -/
def nodeRows (l : Ledger) (node : Int) : List NodeDayRow := (l.nodeDayRows.select (·.node == node)).map (·.2)

/-- What the tables keep unique: ids and uuids of users, ids of batches, and days of users. Every run keeps
this (`Fleet.run_ledger_sound`). -/
structure Keyed (l : Ledger) : Prop where
  distinct : l.Distinct
  batches : l.stagedRows.Numbered
  days : (dayKeys l.userDayRows).Nodup

end Ledger

/-- What traffic of a node on a day adds to an account. Days are told apart by their texts, and the two
zeros are one rate. -/
def Traffic.share (l : Ledger) (node : Int) (day : Day) (t : Traffic) : Account → Int × Int
  | .user id => ((l.uuid? id).map t.ofUser).getD 0
  | .userDay key => if key = DayKey.of key.user t.rate day then ((l.uuid? key.user).map t.ofUser).getD 0 else 0
  | .nodeDay node' day' => if node = node' ∧ day.text = day'.text then t.booked else 0

/-- The answer to the commit of traffic. -/
def Traffic.summary (l : Ledger) (t : Traffic) : CommitSummary where
  usersUpdated := t.users.countP fun u => u.total ≠ 0 ∧ (l.userId? u.uuid).isSome
  usersSkipped := t.users.countP fun u => u.total ≠ 0 ∧ (l.userId? u.uuid).isNone
  upload := t.upload
  download := t.download

/-- What a batch adds to an account. -/
def TrafficBatch.share (l : Ledger) (b : TrafficBatch) : Account → Int × Int := b.traffic.share l b.node b.day

namespace Ledger

variable {l l' : Ledger}

/-! ## Users are known by their uuids -/

theorem get?_of_credited {x : String → Int × Int} (h : l'.users.rows = credited l.users.rows x) (id : Int) :
    l'.users.get? id = (l.users.get? id).map fun r => r.credit (x r.uuid) := by
  rw [Table.get?, Table.get?, h, credited, List.find?_map, Option.map_map, Option.map_map]
  rfl

theorem uuid?_of_credited {x : String → Int × Int} (h : l'.users.rows = credited l.users.rows x) :
    l'.uuid? = l.uuid? := by
  funext id
  rw [uuid?, uuid?, get?_of_credited h, Option.map_map]
  rfl

theorem userId?_of_credited {x : String → Int × Int} (h : l'.users.rows = credited l.users.rows x) :
    l'.userId? = l.userId? := by
  funext uuid
  unfold userId? Table.select
  rw [h, credited, List.filter_map, List.head?_map, Option.map_map]
  rfl

theorem userId?_eq_some_iff (h : l.Distinct) {uuid : String} {id : Int} :
    l.userId? uuid = some id ↔ l.uuid? id = some uuid := by
  have hids : l.users.rows.Pairwise fun e f => e.1 ≠ f.1 := List.pairwise_map.1 h.ids
  have huuids : l.users.rows.Pairwise fun e f => e.2.uuid ≠ f.2.uuid := List.pairwise_map.1 h.uuids
  unfold userId? uuid? Table.select Table.get?
  rw [List.head?_filter]
  simp only [Option.map_map, Option.map_eq_some_iff, find?_key_eq_some hids, find?_key_eq_some huuids,
    Function.comp_apply]
  constructor
  · rintro ⟨e, ⟨he, huuid⟩, hid⟩
    exact ⟨e, ⟨he, hid⟩, huuid⟩
  · rintro ⟨e, ⟨he, hid⟩, huuid⟩
    exact ⟨e, ⟨he, huuid⟩, hid⟩

/-! ## One entry -/

/-- What becomes of an entry of a batch, and of the summary. -/
inductive Entered (l : Ledger) (rate : Binary64) (day : Day) (summary : CommitSummary) (u : UserTraffic) :
    CommitSummary × Ledger → Prop
  | nothing (zero : u.total = 0) : Entered l rate day summary u (summary, l)
  | skipped (counts : u.total ≠ 0) (unknown : l.userId? u.uuid = none) :
    Entered l rate day summary u ({ summary with usersSkipped := summary.usersSkipped + 1 }, l)
  | added (id : Int) (counts : u.total ≠ 0) (known : l.userId? u.uuid = some id) :
    Entered l rate day summary u
      ({ summary with usersUpdated := summary.usersUpdated + 1 },
        { l with
          users := l.users.modifyId id (·.credit u.total)
          userDayRows := addUserDay l.userDayRows id rate day u.upload u.download })

theorem addEntry_entered (l : Ledger) (rate : Binary64) (day : Day) (summary : CommitSummary) (u : UserTraffic) :
    Entered l rate day summary u (addEntry rate day (summary, l) u) := by
  have hzero : u.total = 0 ↔ u.upload = 0 ∧ u.download = 0 := Prod.mk_eq_zero
  unfold addEntry
  dsimp only
  split_ifs with hnothing
  · exact .nothing (hzero.2 hnothing)
  · cases hfind : l.userId? u.uuid with
    | none => exact .skipped (mt hzero.1 hnothing) hfind
    | some id => exact .added id (mt hzero.1 hnothing) hfind

/-- What an entry adds to the days of some kind. -/
def dayShare (l : Ledger) (rate : Binary64) (day : Day) (p : DayKey → Bool) (u : UserTraffic) : Int × Int :=
  match l.userId? u.uuid with
  | some id => if p (DayKey.of id rate day) then u.total else 0
  | none => 0

/-- An entry opens the day of a user who is known, if there is something in it. -/
def EntryOpens (l : Ledger) (rate : Binary64) (day : Day) (k : DayKey) (u : UserTraffic) : Prop :=
  u.total ≠ 0 ∧ ∃ id, l.userId? u.uuid = some id ∧ k = DayKey.of id rate day

section Entry

variable (h : l.Distinct) (rate : Binary64) (day : Day) (summary : CommitSummary) (u : UserTraffic)

include h in
/-- Who is known by which uuid stays. -/
theorem addEntry_known : (addEntry rate day (summary, l) u).2.Distinct ∧
    (addEntry rate day (summary, l) u).2.userId? = l.userId? :=
  ⟨h.credited (users_addEntry h rate day summary u), userId?_of_credited (users_addEntry h rate day summary u)⟩

theorem addEntry_days (hdays : (dayKeys l.userDayRows).Nodup) :
    let t := (addEntry rate day (summary, l) u).2.userDayRows
    (dayKeys t).Nodup ∧ (∀ p, daySum t p = daySum l.userDayRows p + l.dayShare rate day p u) ∧
      ∀ k, k ∈ dayKeys t ↔ k ∈ dayKeys l.userDayRows ∨ l.EntryOpens rate day k u := by
  have hentered := addEntry_entered l rate day summary u
  generalize addEntry rate day (summary, l) u = r at hentered
  cases hentered with
  | nothing zero =>
    refine ⟨hdays, fun p => ?_, fun k => ?_⟩
    · unfold dayShare
      split <;> simp [zero]
    · simp [EntryOpens, zero]
  | skipped counts unknown =>
    refine ⟨hdays, fun p => ?_, fun k => ?_⟩
    · simp [dayShare, unknown]
    · simp [EntryOpens, unknown]
  | added id counts known =>
    refine ⟨nodup_addUserDay hdays _ _ _ _ _, fun p => ?_, fun k => ?_⟩
    · dsimp only
      rw [daySum_addUserDay hdays, dayShare, known]
      rfl
    · dsimp only
      rw [dayKeys_addUserDay, List.mem_append, EntryOpens, known]
      split_ifs with hthere
      · simp only [List.not_mem_nil, or_false, Option.some.injEq, exists_eq_left', iff_self_or]
        rintro ⟨-, rfl⟩
        exact hthere
      · simp [counts]

end Entry

/-! ## All entries -/

section Entries

variable (h : l.Distinct) (rate : Binary64) (day : Day) (summary : CommitSummary) (us : List UserTraffic)

include h in
/-- Each entry adds its share to the days of users. -/
theorem foldl_addEntry_days (hdays : (dayKeys l.userDayRows).Nodup) :
    let t := (us.foldl (addEntry rate day) (summary, l)).2.userDayRows
    (dayKeys t).Nodup ∧ (∀ p, daySum t p = daySum l.userDayRows p + (us.map (l.dayShare rate day p)).sum) ∧
      ∀ k, k ∈ dayKeys t ↔ k ∈ dayKeys l.userDayRows ∨ ∃ u ∈ us, l.EntryOpens rate day k u := by
  induction us generalizing l summary with
  | nil => exact ⟨hdays, fun p => by simp, fun k => by simp⟩
  | cons u us ih =>
    obtain ⟨hnodup, hsum, hkeys⟩ := addEntry_days rate day summary u hdays
    obtain ⟨hdistinct, hknown⟩ := addEntry_known h rate day summary u
    obtain ⟨hnodup', hsum', hkeys'⟩ := ih hdistinct (addEntry rate day (summary, l) u).1 hnodup
    -- the users stay who they are, so the rest is shared out as it would be at the start
    have hshare : ∀ p, (addEntry rate day (summary, l) u).2.dayShare rate day p = l.dayShare rate day p := by
      intro p
      funext u'
      rw [dayShare, hknown, dayShare]
    refine ⟨hnodup', fun p => ?_, fun k => ?_⟩
    · rw [List.foldl_cons, hsum', hsum, hshare, List.map_cons, List.sum_cons, add_assoc]
    · rw [List.foldl_cons, hkeys', hkeys]
      simp only [EntryOpens, hknown, List.exists_mem_cons_iff, or_assoc]

include h in
/-- Each entry of which something was counted is told of, under the users who are known or the others. -/
theorem foldl_addEntry_summary :
    (us.foldl (addEntry rate day) (summary, l)).1 =
      { summary with
        usersUpdated := summary.usersUpdated + us.countP fun u => u.total ≠ 0 ∧ (l.userId? u.uuid).isSome
        usersSkipped := summary.usersSkipped + us.countP fun u => u.total ≠ 0 ∧ (l.userId? u.uuid).isNone } := by
  induction us generalizing l summary with
  | nil => rfl
  | cons u us ih =>
    obtain ⟨hdistinct, hknown⟩ := addEntry_known h rate day summary u
    have hentered := addEntry_entered l rate day summary u
    rw [List.foldl_cons]
    generalize addEntry rate day (summary, l) u = r at hdistinct hknown hentered
    have hrest := ih hdistinct r.1
    rw [hknown] at hrest
    cases hentered with
    | nothing zero => simp [hrest, zero]
    | skipped counts unknown => simp [hrest, counts, unknown, Nat.add_assoc, Nat.add_comm 1]
    | added id counts known => simp [hrest, counts, known, Nat.add_assoc, Nat.add_comm 1]

end Entries

/-! ## Days of nodes -/

/-- The rows of the days of a node with a batch added. The protocol stays the first one. -/
def addToRows (rows : List NodeDayRow) (b : TrafficBatch) : List NodeDayRow :=
  if 0 < b.traffic.upload ∨ 0 < b.traffic.download then
    if rows.any (·.day == b.day.text) then
      rows.map fun r =>
        if r.day == b.day.text then
          { r with upload := r.upload + b.traffic.upload, download := r.download + b.traffic.download }
        else r
    else rows ++ [⟨b.node, b.traffic.protocol, b.day.text, b.traffic.upload, b.traffic.download⟩]
  else rows

/-- Adding to a day of a node changes the rows of that node only, by what they are. -/
theorem nodeRows_addNodeDay (l : Ledger) (b : TrafficBatch)
    (hcounts : 0 < b.traffic.upload ∨ 0 < b.traffic.download) (node : Int) :
    nodeRows { l with
      nodeDayRows :=
        addNodeDay l.nodeDayRows b.node b.traffic.protocol b.day b.traffic.upload b.traffic.download } node =
      if b.node = node then addToRows (l.nodeRows node) b else l.nodeRows node := by
  have hany : (l.nodeRows b.node).any (·.day == b.day.text) =
      l.nodeDayRows.rows.any fun e => e.2.node == b.node && e.2.day == b.day.text := by
    rw [nodeRows, Table.select, List.any_map, List.any_filter]
    rfl
  have hself : ∀ r ∈ l.nodeRows node, r.node = node := by
    intro r hr
    obtain ⟨e, he, rfl⟩ := List.mem_map.1 hr
    simpa using (List.mem_filter.1 he).2
  have hmodify := Table.map_select_modify l.nodeDayRows (fun r => r.node == b.node && r.day == b.day.text)
    (fun r => r.node == node)
    (f := fun r => { r with upload := r.upload + b.traffic.upload, download := r.download + b.traffic.download })
    fun _ => rfl
  rw [nodeRows]
  unfold addNodeDay
  dsimp only
  by_cases hthere : (l.nodeDayRows.rows.any fun e => e.2.node == b.node && e.2.day == b.day.text) = true
  · -- the row of the day stays where it is
    rw [if_pos hthere, hmodify, ← nodeRows]
    split_ifs with hnode
    · subst hnode
      rw [addToRows, if_pos hcounts, hany, if_pos hthere]
      refine List.map_congr_left fun r hr => ?_
      rw [hself r hr, beq_self_eq_true, Bool.true_and]
    · refine (List.map_congr_left fun r hr => ?_).trans (List.map_id _)
      have hother : (r.node == b.node) = false := by simpa [hself r hr] using Ne.symm hnode
      rw [hother, Bool.false_and, if_neg Bool.false_ne_true]
      rfl
  · -- a row is added at the end
    rw [if_neg hthere, Table.select, Table.rows_insert, List.filter_append, List.map_append]
    change l.nodeRows node ++ _ = _
    split_ifs with hnode
    · subst hnode
      rw [addToRows, if_pos hcounts, hany, if_neg hthere]
      simp
    · simp [hnode]

theorem nodeRows_apply (h : l.Distinct) (b : TrafficBatch) (node : Int) :
    (l.apply b.node b.day b.traffic).2.nodeRows node =
      if b.node = node then addToRows (l.nodeRows node) b else l.nodeRows node := by
  have hrows := (foldl_addEntry h b.traffic.rate b.day {} b.traffic.users).2.2
  unfold apply
  generalize b.traffic.users.foldl (addEntry b.traffic.rate b.day) ({}, l) = r at hrows
  dsimp only at hrows ⊢
  by_cases hcounts : 0 < b.traffic.upload ∨ 0 < b.traffic.download
  · rw [if_pos hcounts, hrows]
    exact nodeRows_addNodeDay l b hcounts node
  · rw [if_neg hcounts, hrows, addToRows, if_neg hcounts]
    exact (ite_self _).symm

/-! ## Batches that were added -/

/-- The second ledger is the first with batches added: to the users, to the accounts and to the rows of
nodes, and no day of a user is there that was not there or opened by one of them. -/
structure Booked (l : Ledger) (bs : List TrafficBatch) (l' : Ledger) : Prop where
  users : l'.users.rows = credited l.users.rows fun uuid => (bs.map (·.traffic.ofUser uuid)).sum
  balance : ∀ a, l'.balance a = l.balance a + (bs.map (·.share l a)).sum
  opened : ∀ k, k ∈ dayKeys l'.userDayRows ↔ k ∈ dayKeys l.userDayRows ∨
    ∃ b ∈ bs, ∃ u ∈ b.traffic.users, l.EntryOpens b.traffic.rate b.day k u
  nodup : (dayKeys l.userDayRows).Nodup → (dayKeys l'.userDayRows).Nodup
  nodeRows : ∀ node, l'.nodeRows node = (bs.filter (·.node == node)).foldl addToRows (l.nodeRows node)

namespace Booked

variable {bs cs : List TrafficBatch} {m : Ledger}

/-- Nothing is added where only the staged traffic changes. -/
theorem restaged (l : Ledger) (staged : Table StagedRow) : Booked l [] { l with stagedRows := staged } where
  users := (credited_zero _).symm
  balance _ := (add_zero _).symm
  opened _ := by simp
  nodup h := h
  nodeRows _ := rfl

theorem refl (l : Ledger) : Booked l [] l := restaged l l.stagedRows

theorem keyed (h : Booked l bs l') (hl : l.Keyed) (hstaged : l'.stagedRows.Numbered) : l'.Keyed :=
  ⟨hl.distinct.credited h.users, hstaged, h.nodup hl.days⟩

theorem summary (h : Booked l bs l') (t : Traffic) : t.summary l' = t.summary l := by
  rw [Traffic.summary, Traffic.summary, userId?_of_credited h.users]

/-- Which account the share of a batch goes to stays. -/
theorem share (h : Booked l bs m) (b : TrafficBatch) : b.share m = b.share l := by
  funext a
  unfold TrafficBatch.share Traffic.share
  rw [uuid?_of_credited h.users]

theorem trans (h : Booked l bs m) (h' : Booked m cs l') : Booked l (bs ++ cs) l' where
  users := by
    rw [h'.users, h.users, credited_credited]
    simp only [List.map_append, List.sum_append]
  balance a := by
    have hsame : cs.map (·.share m a) = cs.map (·.share l a) :=
      List.map_congr_left fun b _ => congrFun (h.share b) a
    rw [h'.balance, h.balance, hsame, List.map_append, List.sum_append, add_assoc]
  opened k := by
    rw [h'.opened, h.opened]
    simp only [EntryOpens, userId?_of_credited h.users, List.mem_append, or_assoc, or_and_right, exists_or]
  nodup hnodup := h'.nodup (h.nodup hnodup)
  nodeRows node := by rw [h'.nodeRows, h.nodeRows, List.filter_append, List.foldl_append]

end Booked

/-- What the entries of a batch add to one day of a user. -/
theorem sum_dayShare (h : l.Distinct) (t : Traffic) (day : Day) (key : DayKey) :
    (t.users.map (l.dayShare t.rate day (· == key))).sum =
      if key = DayKey.of key.user t.rate day then ((l.uuid? key.user).map t.ofUser).getD 0 else 0 := by
  -- by the key the user is known already, so that only the entries with the user's uuid count
  have hshare : ∀ u, l.dayShare t.rate day (· == key) u =
      if key = DayKey.of key.user t.rate day ∧ l.uuid? key.user = some u.uuid then u.total else 0 := by
    intro u
    simp only [← userId?_eq_some_iff h, dayShare]
    cases l.userId? u.uuid with
    | none => simp
    | some id =>
      have hkey : DayKey.of id t.rate day = key ↔ key = DayKey.of key.user t.rate day ∧ id = key.user :=
        ⟨fun heq => by simp [← heq, DayKey.of], fun ⟨heq, hid⟩ => hid ▸ heq.symm⟩
      simp [hkey]
  rw [List.map_congr_left fun u _ => hshare u]
  split_ifs with hkey
  · cases l.uuid? key.user with
    | none => simp
    | some uuid =>
      simp only [← hkey, true_and, Option.some.injEq, List.sum_map_ite]
      simp [Traffic.ofUser, eq_comm, beq_eq_decide]
  · simp [hkey]

theorem apply_booked (h : l.Distinct) (hdays : (dayKeys l.userDayRows).Nodup) (b : TrafficBatch) :
    Booked l [b] (l.apply b.node b.day b.traffic).2 ∧
      (l.apply b.node b.day b.traffic).1 = b.traffic.summary l := by
  obtain ⟨husers, -, hnode⟩ := apply_effect h b.node b.day b.traffic
  obtain ⟨hnodup, hsum, hkeys⟩ := foldl_addEntry_days h b.traffic.rate b.day {} b.traffic.users hdays
  have hsummary := foldl_addEntry_summary h b.traffic.rate b.day {} b.traffic.users
  have huserDays : (l.apply b.node b.day b.traffic).2.userDayRows =
      (b.traffic.users.foldl (addEntry b.traffic.rate b.day) ({}, l)).2.userDayRows := rfl
  refine ⟨⟨?_, fun a => ?_, fun k => ?_, fun _ => ?_, fun node => ?_⟩, ?_⟩
  · simpa using husers
  · rw [List.map_singleton, List.sum_singleton]
    cases a with
    | user id =>
      rw [balance, get?_of_credited husers, balance, TrafficBatch.share, Traffic.share, uuid?]
      cases l.users.get? id with
      | none => rfl
      | some r => simp
    | userDay key =>
      rw [balance, huserDays, hsum, sum_dayShare h]
      rfl
    | nodeDay node day => exact hnode node day
  · rw [huserDays, hkeys]
    simp
  · rw [huserDays]
    exact hnodup
  · rw [nodeRows_apply h]
    by_cases hnode : b.node = node
    · simp [hnode]
    · simp [hnode]
  · have happly : (l.apply b.node b.day b.traffic).1 =
        { (b.traffic.users.foldl (addEntry b.traffic.rate b.day) ({}, l)).1 with
          upload := b.traffic.upload
          download := b.traffic.download } := rfl
    rw [happly, hsummary, Traffic.summary]
    simp

end Ledger

end ProxyFleet

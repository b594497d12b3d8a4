import ProxyFleet.Proofs.Traffic.Pull

/-!
# Batches in any order

Staged batches can be committed in any order: what each of them adds and answers is settled by who the
users are, which no batch changes, and sums do not depend on the order. Only which rows of days are opened
first does, and with it nothing but their place in the table.

* `Binary64.unsigned` : the rate with which a day is opened;
* `Ledger.Extends` : days stay, with their rates, and others are opened (`Extends.refl`, `Extends.trans`);
* `extends_commitAll` : commits extend the days of users;
* `userDayRows_perm` : days of the same keys with the same sums over the same first table are the same rows;
* `Ledger.answers` : what is answered to batches that are committed one after the other;
* `commitAll_perm` : batches in another order end in the same totals, with the same answers.
-/

namespace ProxyFleet

set_option autoImplicit false

namespace Binary64

/-- The double without the sign of zero. -/
def unsigned (x : Binary64) : Binary64 := if x.isZero then zero else x

theorem unsigned_unsigned (x : Binary64) : x.unsigned.unsigned = x.unsigned := by
  have hzero : zero.isZero = true := by decide
  unfold unsigned
  split_ifs
  · rfl
  · rfl

theorem isZero_iff_orderKey {x : Binary64} : x.isZero = true ↔ x.orderKey = 0 := by
  unfold isZero orderKey
  rw [beq_iff_eq]
  split_ifs
  · omega
  · omega

/-- The order tells doubles apart, but for the sign of zero. -/
theorem unsigned_eq_of_orderKey_eq {x y : Binary64} (h : x.orderKey = y.orderKey) : x.unsigned = y.unsigned := by
  unfold unsigned
  by_cases hx : x.isZero = true
  · rw [if_pos hx, if_pos (isZero_iff_orderKey.2 (h ▸ isZero_iff_orderKey.1 hx))]
  · have hy : ¬y.isZero = true := fun hy => hx (isZero_iff_orderKey.2 (h.trans (isZero_iff_orderKey.1 hy)))
    rw [if_neg hx, if_neg hy]
    -- sign and remaining bits are both read off the order, so that all bits are the same
    have hsign : Nat.pow 2 63 = 9223372036854775808 := rfl
    have hxlt := x.bits.toNat_lt
    have hylt := y.bits.toNat_lt
    have hbits : x.bits.toNat = y.bits.toNat := by
      simp only [isZero, absBits, hsign, beq_iff_eq] at hx hy
      simp only [orderKey, isNegative, absBits, hsign, decide_eq_true_eq] at h
      split_ifs at h <;> omega
    cases x
    cases y
    exact congrArg mk (UInt64.toNat_inj.1 hbits)

end Binary64

theorem UserDayRow.eq_of_key_eq {r s : UserDayRow} (hkey : r.key = s.key) (hrate : r.rate = s.rate)
    (hamount : r.amount = s.amount) : r = s := by
  cases r
  cases s
  simp only [key, DayKey.mk.injEq] at hkey
  simp only [amount, Prod.mk.injEq] at hamount
  simp only [mk.injEq]
  exact ⟨hkey.1, hrate, hkey.2.2, hamount.1, hamount.2⟩

namespace Ledger

variable {l : Ledger} {t : Table UserDayRow}

/-! ## Days that stay -/

/-- The days of the first table are in the second too, and every day there has the rate that it has in the
first table, or one without the sign of zero if it is new. -/
structure Extends (t t' : Table UserDayRow) : Prop where
  keys : ∀ k ∈ dayKeys t, k ∈ dayKeys t'
  rates : ∀ e ∈ t'.rows, (∃ e₀ ∈ t.rows, e₀.2.key = e.2.key ∧ e₀.2.rate = e.2.rate) ∨
    e.2.key ∉ dayKeys t ∧ e.2.rate = e.2.rate.unsigned

namespace Extends

theorem refl (t : Table UserDayRow) : Extends t t :=
  ⟨fun _ hk => hk, fun e he => .inl ⟨e, he, rfl, rfl⟩⟩

theorem trans {t₁ t₂ t₃ : Table UserDayRow} (h : Extends t₁ t₂) (h' : Extends t₂ t₃) : Extends t₁ t₃ where
  keys k hk := h'.keys k (h.keys k hk)
  rates e he := by
    rcases h'.rates e he with ⟨e₂, he₂, hkey, hrate⟩ | ⟨hnew, hrate⟩
    · rw [← hkey, ← hrate]
      exact h.rates e₂ he₂
    · exact .inr ⟨fun hk => hnew (h.keys _ hk), hrate⟩

end Extends

theorem extends_addUserDay (t : Table UserDayRow) (user : Int) (rate : Binary64) (day : Day) (upload download : Int) :
    Extends t (addUserDay t user rate day upload download) := by
  refine ⟨fun k hk => ?_, fun e he => ?_⟩
  · rw [dayKeys_addUserDay]
    exact List.mem_append_left _ hk
  · rw [addUserDay_eq] at he
    split_ifs at he with hthere
    · rw [Table.rows_modify] at he
      obtain ⟨e₀, he₀, rfl⟩ := List.mem_map.1 he
      refine .inl ⟨e₀, he₀, ?_⟩
      split_ifs
      · exact ⟨rfl, rfl⟩
      · exact ⟨rfl, rfl⟩
    · rcases List.mem_append.1 he with he | he
      · exact .inl ⟨e, he, rfl, rfl⟩
      · rw [List.mem_singleton.1 he]
        exact .inr ⟨by rwa [key_opened], rate.unsigned_unsigned.symm⟩

theorem extends_addEntry (l : Ledger) (rate : Binary64) (day : Day) (summary : CommitSummary) (u : UserTraffic) :
    Extends l.userDayRows (addEntry rate day (summary, l) u).2.userDayRows := by
  have hentered := addEntry_entered l rate day summary u
  generalize addEntry rate day (summary, l) u = r at hentered
  cases hentered with
  | nothing zero => exact Extends.refl _
  | skipped counts unknown => exact Extends.refl _
  | added id counts known => exact extends_addUserDay _ _ _ _ _ _

theorem extends_commit (l : Ledger) (b : TrafficBatch) : Extends l.userDayRows (l.commit b).2.userDayRows := by
  unfold commit
  split_ifs
  · exact List.foldlRecOn (motive := fun (s : CommitSummary × Ledger) => Extends l.userDayRows s.2.userDayRows)
      b.traffic.users (addEntry b.traffic.rate b.day) (Extends.refl _)
      fun s hs u _ => hs.trans (extends_addEntry s.2 b.traffic.rate b.day s.1 u)
  · exact Extends.refl _

theorem extends_commitAll (l : Ledger) (bs : List TrafficBatch) :
    Extends l.userDayRows (l.commitAll bs).2.userDayRows :=
  List.foldlRecOn (motive := fun (s : CommitSummary × Ledger) => Extends l.userDayRows s.2.userDayRows)
    bs _ (Extends.refl _) fun s hs b _ => hs.trans (extends_commit s.2 b)

/-! ## The same days -/

/-- Where each day has one row, the sum over a day is what its row says. -/
theorem daySum_eq_amount (h : (dayKeys t).Nodup) {e : Int × UserDayRow} (he : e ∈ t.rows) :
    daySum t (· == e.2.key) = e.2.amount := by
  have hkeys : t.rows.Pairwise fun a b => a.2.key ≠ b.2.key := List.pairwise_map.1 h
  obtain ⟨before, after, hrows⟩ := List.append_of_mem he
  rw [hrows] at hkeys
  obtain ⟨-, hafter, hbefore⟩ := List.pairwise_append.1 hkeys
  have hnone : ∀ rows : List (Int × UserDayRow), (∀ a ∈ rows, a.2.key ≠ e.2.key) →
      rows.filter (fun a => a.2.key == e.2.key) = [] := by
    intro rows hne
    simpa using hne
  rw [daySum, hrows, List.filter_append, hnone before fun a ha => hbefore a ha e (by simp),
    List.filter_cons_of_pos (by simp), hnone after fun a ha => ((List.pairwise_cons.1 hafter).1 a ha).symm]
  simp

/-- A day that two tables have, each with the days of a first table, has one rate in both. -/
theorem Extends.rate_eq {t₁ t₂ : Table UserDayRow} (h : (dayKeys t).Nodup) (h₁ : Extends t t₁) (h₂ : Extends t t₂)
    {e₁ e₂ : Int × UserDayRow} (he₁ : e₁ ∈ t₁.rows) (he₂ : e₂ ∈ t₂.rows) (hkey : e₁.2.key = e₂.2.key) :
    e₁.2.rate = e₂.2.rate := by
  have hthere : ∀ {a : Int × UserDayRow}, a ∈ t.rows → a.2.key ∈ dayKeys t := fun ha => List.mem_map.2 ⟨_, ha, rfl⟩
  rcases h₁.rates e₁ he₁ with ⟨a, ha, hak, har⟩ | ⟨hnew₁, hr₁⟩
  · rcases h₂.rates e₂ he₂ with ⟨b, hb, hbk, hbr⟩ | ⟨hnew₂, -⟩
    · obtain rfl : a = b := List.inj_on_of_nodup_map h ha hb (hak.trans (hkey.trans hbk.symm))
      exact har.symm.trans hbr
    · exact absurd (hak.trans hkey ▸ hthere ha) hnew₂
  · rcases h₂.rates e₂ he₂ with ⟨b, hb, hbk, -⟩ | ⟨-, hr₂⟩
    · exact absurd (hbk.trans hkey.symm ▸ hthere hb) hnew₁
    · rw [hr₁, hr₂]
      exact Binary64.unsigned_eq_of_orderKey_eq (congrArg DayKey.rate hkey)

/-- A row of one table is one of the other, if both have the same days with the same sums. -/
theorem Extends.mem_of_mem {t₁ t₂ : Table UserDayRow} (h : (dayKeys t).Nodup) (h₁ : Extends t t₁) (h₂ : Extends t t₂)
    (hn₁ : (dayKeys t₁).Nodup) (hn₂ : (dayKeys t₂).Nodup) (hkeys : ∀ k ∈ dayKeys t₁, k ∈ dayKeys t₂)
    (hsums : ∀ k, daySum t₁ (· == k) = daySum t₂ (· == k)) {r : UserDayRow} (hr : r ∈ t₁.rows.map (·.2)) :
    r ∈ t₂.rows.map (·.2) := by
  obtain ⟨e₁, he₁, rfl⟩ := List.mem_map.1 hr
  obtain ⟨e₂, he₂, hkey⟩ := List.mem_map.1 (hkeys _ (List.mem_map.2 ⟨e₁, he₁, rfl⟩))
  have hrate := Extends.rate_eq h h₁ h₂ he₁ he₂ hkey.symm
  have hamount : e₂.2.amount = e₁.2.amount := by
    rw [← daySum_eq_amount hn₁ he₁, hsums, ← hkey, daySum_eq_amount hn₂ he₂]
  exact List.mem_map.2 ⟨e₂, he₂, UserDayRow.eq_of_key_eq hkey hrate.symm hamount⟩

theorem userDayRows_perm {t₁ t₂ : Table UserDayRow} (h : (dayKeys t).Nodup) (h₁ : Extends t t₁) (h₂ : Extends t t₂)
    (hn₁ : (dayKeys t₁).Nodup) (hn₂ : (dayKeys t₂).Nodup) (hkeys : ∀ k, k ∈ dayKeys t₁ ↔ k ∈ dayKeys t₂)
    (hsums : ∀ k, daySum t₁ (· == k) = daySum t₂ (· == k)) :
    (t₁.rows.map (·.2)).Perm (t₂.rows.map (·.2)) := by
  have hnodup : ∀ {t : Table UserDayRow}, (dayKeys t).Nodup → (t.rows.map (·.2)).Nodup := by
    intro t ht
    refine List.Nodup.of_map UserDayRow.key ?_
    rwa [List.map_map]
  refine (List.perm_ext_iff_of_nodup (hnodup hn₁) (hnodup hn₂)).2 fun r => ⟨?_, ?_⟩
  · exact Extends.mem_of_mem h h₁ h₂ hn₁ hn₂ (fun k => (hkeys k).1) hsums
  · exact Extends.mem_of_mem h h₂ h₁ hn₂ hn₁ (fun k => (hkeys k).2) fun k => (hsums k).symm

/-! ## Answers -/

/-- What is answered to batches that are committed one after the other. -/
def answers (l : Ledger) : List TrafficBatch → List (TrafficBatch × CommitSummary)
  | [] => []
  | b :: bs => (b, (l.commit b).1) :: (l.commit b).2.answers bs

/-- Each batch is answered as it would be if it were the first. -/
theorem answers_eq (h : l.Keyed) {bs : List TrafficBatch} (hids : (bs.map (·.id)).Nodup)
    (hstaged : ∀ b ∈ bs, l.stagedRows.has b.id = true) :
    l.answers bs = bs.map fun b => (b, b.traffic.summary l) := by
  induction bs generalizing l with
  | nil => rfl
  | cons b bs ih =>
    obtain ⟨hnew, hids⟩ := List.nodup_cons.1 hids
    obtain ⟨hb, hrest⟩ := List.forall_mem_cons.1 hstaged
    obtain ⟨hbooked, hsummary⟩ := commit_booked h hb
    have hstill : ∀ b' ∈ bs, (l.commit b).2.stagedRows.has b'.id = true := by
      intro b' hb'
      have hne : b'.id ≠ b.id := fun heq => hnew (List.mem_map.2 ⟨b', hb', heq⟩)
      rw [stagedRows_commit, Table.has_eraseId, hrest b' hb', beq_false_of_ne hne]
      rfl
    rw [answers, ih (h.commit b) hids hstill, hsummary, List.map_cons]
    simp only [hbooked.summary]

/-- **Batches can be committed in any order.** Let different batches be staged, and let them be committed in
two orders. Both times every user has used the same in the end, the days of users are the same rows, what is
recorded for a node on a day is the same, the same is still staged, and each batch got the same answer. -/
theorem commitAll_perm (h : l.Keyed) {bs cs : List TrafficBatch} (hids : (bs.map (·.id)).Nodup)
    (hstaged : ∀ b ∈ bs, l.stagedRows.has b.id = true) (hperm : bs.Perm cs) :
    let x := (l.commitAll bs).2
    let y := (l.commitAll cs).2
    x.users.rows = y.users.rows ∧ (x.userDayRows.rows.map (·.2)).Perm (y.userDayRows.rows.map (·.2)) ∧
    (∀ node day, x.nodeDay node day = y.nodeDay node day) ∧ x.stagedRows = y.stagedRows ∧
    (l.answers bs).Perm (l.answers cs) := by
  intro x y
  have hids' : (cs.map (·.id)).Nodup := (hperm.map _).nodup_iff.1 hids
  have hstaged' : ∀ b ∈ cs, l.stagedRows.has b.id = true := fun b hb => hstaged b (hperm.mem_iff.2 hb)
  have hx : Booked l bs x := (commitAll_booked h hids hstaged).1
  have hy : Booked l cs y := (commitAll_booked h hids' hstaged').1
  have hbalance : ∀ a, x.balance a = y.balance a := by
    intro a
    rw [hx.balance, hy.balance, (hperm.map _).sum_eq]
  refine ⟨?_, ?_, fun node day => hbalance (.nodeDay node day), ?_, ?_⟩
  · rw [hx.users, hy.users]
    congr 1
    funext uuid
    exact (hperm.map _).sum_eq
  · refine userDayRows_perm h.days (extends_commitAll l bs) (extends_commitAll l cs) (hx.nodup h.days)
      (hy.nodup h.days) (fun k => ?_) fun k => hbalance (.userDay k)
    rw [hx.opened, hy.opened]
    simp only [hperm.mem_iff]
  · rw [stagedRows_commitAll, stagedRows_commitAll]
    congr 1
    funext id _
    rw [Bool.eq_iff_iff, List.contains_iff_mem, List.contains_iff_mem, (hperm.map _).mem_iff]
  · rw [answers_eq h hids hstaged, answers_eq h hids' hstaged']
    exact hperm.map _

/-- A ledger with one user, for whom three batches are staged: at either zero, and with what is not the
user's. -/
def sampleStaged : Ledger × List TrafficBatch :=
  let day : Day := ⟨2024, 2, 29⟩
  let batches : List TrafficBatch :=
    [⟨1, 7, day, ⟨"vless", .zero, 30, 70, [⟨"u", 10, 20⟩, ⟨"x", 20, 50⟩, ⟨"u", 1, 2⟩]⟩⟩,
      ⟨2, 7, day, ⟨"trojan", Binary64.zero.neg, 5, 0, [⟨"u", 5, 0⟩]⟩⟩,
      ⟨3, 8, day, ⟨"trojan", .one, 0, 0, [⟨"u", -4, 0⟩, ⟨"u", 0, 0⟩]⟩⟩]
  let l : Ledger :=
    { users := ({} : UserTable).insert
        { uuid := "u", tokenHash := "", group := none, quota := 0, expiresAt := none, speedLimit := none
          createdAt := "" } }
  (batches.foldl (fun l b => (l.stage b.node b.day b.traffic ⟨0⟩).2) l, batches)

theorem commitAll_perm_sampleStaged :
    let (l, bs) := sampleStaged
    l.Keyed ∧ (bs.map (·.id)).Nodup ∧ (∀ b ∈ bs, l.stagedRows.has b.id = true) ∧ bs.Perm bs.reverse ∧
    let x := (l.commitAll bs).2
    let y := (l.commitAll bs.reverse).2
    x.users.rows = y.users.rows ∧ (x.userDayRows.rows.map (·.2)).Perm (y.userDayRows.rows.map (·.2)) ∧
    (∀ node day, x.nodeDay node day = y.nodeDay node day) ∧ x.stagedRows = y.stagedRows ∧
    (l.answers bs).Perm (l.answers bs.reverse) := by
  have hkeyed : sampleStaged.1.Keyed := by
    refine ((Keyed.stage ?_ _ _ _ _).stage _ _ _ _).stage _ _ _ _
    exact ⟨⟨by decide, by decide⟩, Table.Numbered.empty, List.nodup_nil⟩
  have hids : (sampleStaged.2.map (·.id)).Nodup := by decide
  have hstaged : ∀ b ∈ sampleStaged.2, sampleStaged.1.stagedRows.has b.id = true := by decide
  have hperm := (List.reverse_perm sampleStaged.2).symm
  exact ⟨hkeyed, hids, hstaged, hperm, commitAll_perm hkeyed hids hstaged hperm⟩

/-- The two zeros are one rate, and what is not the user's is passed over. -/
example :
    let (l, bs) := sampleStaged
    (l.commitAll bs.reverse).2.userDayRows.rows.map (fun e => (e.2.rate, e.2.amount)) =
        [(.one, (-4, 0)), (.zero, (16, 22))] ∧
      (l.answers bs.reverse).map (fun a => (a.2.usersUpdated, a.2.usersSkipped)) = [(1, 0), (1, 0), (2, 1)] := by
  decide +kernel

end Ledger

end ProxyFleet

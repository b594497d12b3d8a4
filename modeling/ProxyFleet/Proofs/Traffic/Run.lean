import ProxyFleet.Proofs.Traffic.Codec
import ProxyFleet.Proofs.Traffic.Totals

/-!
# Every batch counts once

Callers stage traffic, read what is staged, and commit copies of batches that they have got, as often
and in whatever order they like. A copy can be old: its batch may have been committed in the meantime.
Ids of batches are never given again, so a copy of a batch that is no longer staged finds nothing to
take from there, and is not applied. A copy that was read can be at another rate than what was staged,
which no total depends on.

* `LedgerCall`, `Tally` : a call, and the ledger with the batches that were staged and the copies of
  them that callers have;
* `Tally.applied` : the batches that were staged and no longer are;
* `Tally.Sound` : what every call keeps (`Sound.call`): the totals are those of the applied batches;
* `run_applied_once` : so they are after any calls, and a batch that is not staged changes nothing.
-/

namespace ProxyFleet

set_option autoImplicit false

/-- A call on the ledger by any of its callers. -/
inductive LedgerCall where
  | stage (node : Int) (day : Day) (traffic : Traffic)
  /-- Get copies of the batches of a node that are staged. -/
  | read (node : Int)
  /-- Commit the copy that was got as the `i`-th. -/
  | commit (i : Nat)

/-- What is staged is of a day that the calendar has, and not negative. -/
def LedgerCall.Proper : LedgerCall → Prop
  | stage _ day traffic => day.Valid ∧ traffic.NonNegative
  | read _ | commit _ => True

/-- The ledger, every batch that was ever staged, and the copies that callers have got. -/
structure Tally where
  ledger : Ledger
  entered : List TrafficBatch := []
  copies : List TrafficBatch := []

namespace Tally

/-- What a call leaves. Who stages a batch has a copy of it; a reading that fails gives none. -/
def call (s : Tally) (now : Instant) : LedgerCall → Tally
  | .stage node day traffic =>
    let (id, ledger) := s.ledger.stage node day traffic now
    let b : TrafficBatch := ⟨id, node, day, traffic⟩
    { ledger, entered := s.entered ++ [b], copies := s.copies ++ [b] }
  | .read node =>
    match s.ledger.staged node with
    | .ok bs => { s with copies := s.copies ++ bs }
    | .error _ => s
  | .commit i =>
    match s.copies[i]? with
    | some b => { s with ledger := (s.ledger.commit b).2 }
    | none => s

/-- Calls one after the other, each at its moment. -/
def run (s : Tally) (calls : List (Instant × LedgerCall)) : Tally :=
  calls.foldl (fun s c => s.call c.1 c.2) s

/-- The batches that were staged and no longer are. -/
def applied (s : Tally) : List TrafficBatch := s.entered.filter fun b => !s.ledger.stagedRows.has b.id

end Tally

/-- A ledger with users and no traffic. -/
structure Ledger.Fresh (l : Ledger) : Prop where
  distinct : l.Distinct
  unused : ∀ e ∈ l.users.rows, e.2.total = 0
  nothing_staged : l.stagedRows.rows = []
  no_days : l.nodeDayRows.rows = []

namespace Tally

/-- What every call keeps. The copies are of batches that were staged, but for the rate; the ids of these
increase and stay below the next one; and the totals are those of the batches that were applied. -/
structure Sound (l : Ledger) (s : Tally) : Prop where
  distinct : s.ledger.Distinct
  ascending : s.entered.Pairwise (·.id < ·.id)
  below : ∀ b ∈ s.entered, b.id < s.ledger.stagedRows.nextId
  proper : ∀ b ∈ s.entered, b.day.Valid ∧ b.traffic.NonNegative
  rows : ∀ e ∈ s.ledger.stagedRows.rows, ∃ b ∈ s.entered, b.id = e.1 ∧ e.2.Keeps b
  copies : ∀ b ∈ s.copies, ∃ b' ∈ s.entered, ∃ rate, b = b'.atRate rate
  users : s.ledger.users.rows =
    Ledger.credited l.users.rows fun uuid => (s.applied.map (·.traffic.ofUser uuid)).sum
  days : ∀ (node : Int) (day : Day), day.Valid → s.ledger.nodeDay node day =
    (s.applied.map fun b => if b.node = node ∧ b.day = day then b.traffic.total else 0).sum

namespace Sound

variable {l : Ledger} {s : Tally}

theorem initial (h : l.Fresh) : Sound l { ledger := l } where
  distinct := h.distinct
  ascending := List.Pairwise.nil
  below := by simp
  proper := by simp
  rows := by simp [h.nothing_staged]
  copies := by simp
  users := (Ledger.credited_zero l.users.rows).symm
  days node day _ := by
    rw [Ledger.nodeDay_eq, h.no_days]
    rfl

/-- The new batch is staged, so nothing more is applied. -/
theorem applied_stage (h : Sound l s) (b : TrafficBatch) (row : StagedRow)
    (hid : b.id = s.ledger.stagedRows.nextId) :
    (s.entered ++ [b]).filter (fun b => !(s.ledger.stagedRows.insert row).has b.id) = s.applied := by
  have hold : s.entered.filter (fun b => !(s.ledger.stagedRows.insert row).has b.id) = s.applied := by
    refine List.filter_congr fun b' hb' => ?_
    have hne : s.ledger.stagedRows.nextId ≠ b'.id := Int.ne_of_gt (h.below b' hb')
    rw [Table.has_insert, beq_false_of_ne hne, Bool.or_false]
  rw [List.filter_append, hold]
  simp [Table.has_insert, hid]

theorem stage (h : Sound l s) (now : Instant) {node : Int} {day : Day} {traffic : Traffic} (hday : day.Valid)
    (ht : traffic.NonNegative) : Sound l (s.call now (.stage node day traffic)) := by
  let new : TrafficBatch := ⟨s.ledger.stagedRows.nextId, node, day, traffic⟩
  have happlied : (s.call now (.stage node day traffic)).applied = s.applied := h.applied_stage new _ rfl
  refine ⟨⟨h.distinct.ids, h.distinct.uuids⟩, ?_, fun b hb => ?_, fun b hb => ?_, fun e he => ?_, fun b hb => ?_, ?_,
    fun node' day' hd => ?_⟩
  · refine List.pairwise_append.2 ⟨h.ascending, by simp, fun b hb b' hb' => ?_⟩
    rw [List.mem_singleton.1 hb']
    exact h.below b hb
  · have hnext : (s.call now (.stage node day traffic)).ledger.stagedRows.nextId =
        s.ledger.stagedRows.nextId + 1 := rfl
    rw [hnext]
    rcases List.mem_append.1 hb with hb | hb
    · have := h.below b hb
      omega
    · rw [List.mem_singleton.1 hb]
      exact Int.lt_succ _
  · rcases List.mem_append.1 hb with hb | hb
    · exact h.proper b hb
    · rw [List.mem_singleton.1 hb]
      exact ⟨hday, ht⟩
  · rcases List.mem_append.1 he with he | he
    · obtain ⟨b, hb, hid, hkeeps⟩ := h.rows e he
      exact ⟨b, List.mem_append_left _ hb, hid, hkeeps⟩
    · rw [List.mem_singleton.1 he]
      exact ⟨new, List.mem_append_right _ (List.mem_singleton.2 rfl), rfl, .staged _ _ _ _ _⟩
  · rcases List.mem_append.1 hb with hb | hb
    · obtain ⟨b', hb', hcopy⟩ := h.copies b hb
      exact ⟨b', List.mem_append_left _ hb', hcopy⟩
    · exact ⟨b, List.mem_append_right _ hb, b.traffic.rate, rfl⟩
  · rw [happlied]
    exact h.users
  · rw [happlied]
    exact h.days node' day' hd

/-- Copies that are read are of batches that were staged. -/
theorem staged_yields (h : Sound l s) (node : Int) :
    Yields (s.ledger.staged node) fun bs => ∀ b ∈ bs, ∃ b' ∈ s.entered, ∃ rate, b = b'.atRate rate := by
  refine Yields.mapM fun e he => ?_
  obtain ⟨b, hb, hid, hkeeps⟩ := h.rows e (List.mem_filter.1 he).1
  have hread := StagedRow.batch_yields hkeeps (h.proper b hb).1
  rw [hid] at hread
  exact fun b' hb' => ⟨b, hb, hread b' hb'⟩

theorem read (h : Sound l s) (now : Instant) (node : Int) : Sound l (s.call now (.read node)) := by
  rw [call]
  cases hread : s.ledger.staged node with
  | error e => exact h
  | ok bs =>
    refine { h with copies := fun b hb => ?_ }
    rcases List.mem_append.1 hb with hb | hb
    · exact h.copies b hb
    · exact h.staged_yields node bs hread b hb

/-- Copies are of days that the calendar has, and not negative, since what was staged is not. -/
theorem proper_copies (h : Sound l s) : ∀ b ∈ s.copies, b.day.Valid ∧ b.traffic.NonNegative := by
  intro copy hcopy
  obtain ⟨b, hb, rate, rfl⟩ := h.copies copy hcopy
  obtain ⟨hday, ht⟩ := h.proper b hb
  exact ⟨hday, ht.upload, ht.download⟩

/-- The sum over the batches that are applied once one more is. -/
theorem sum_applied {es : List TrafficBatch} (hes : es.Pairwise (·.id < ·.id)) {b : TrafficBatch} (hb : b ∈ es)
    {staged : Int → Bool} (hstaged : staged b.id = true) (f : TrafficBatch → Int × Int) :
    ((es.filter fun x => !(staged x.id && !(x.id == b.id))).map f).sum =
      ((es.filter fun x => !staged x.id).map f).sum + f b := by
  obtain ⟨before, after, rfl⟩ := List.append_of_mem hb
  obtain ⟨-, hafter, hbefore⟩ := List.pairwise_append.1 hes
  have hsame : ∀ xs : List TrafficBatch, (∀ x ∈ xs, x.id ≠ b.id) →
      (xs.filter fun x => !(staged x.id && !(x.id == b.id))) = xs.filter fun x => !staged x.id := by
    intro xs hxs
    refine List.filter_congr fun x hx => ?_
    rw [beq_false_of_ne (hxs x hx), Bool.not_false, Bool.and_true]
  rw [List.filter_append, List.filter_append, List.filter_cons_of_pos (by simp),
    List.filter_cons_of_neg (by simp [hstaged]),
    hsame before fun x hx => Int.ne_of_lt (hbefore x hx b (by simp)),
    hsame after fun x hx => Int.ne_of_gt ((List.pairwise_cons.1 hafter).1 x hx)]
  simp only [List.map_append, List.map_cons, List.sum_append, List.sum_cons]
  rw [add_left_comm, add_comm]

theorem commit (h : Sound l s) (now : Instant) (i : Nat) : Sound l (s.call now (.commit i)) := by
  rw [call]
  cases hcopy : s.copies[i]? with
  | none => exact h
  | some b =>
    dsimp only
    have hcopies := List.mem_of_getElem? hcopy
    obtain ⟨hday, ht⟩ := h.proper_copies b hcopies
    obtain ⟨b, hb, rate, rfl⟩ := h.copies b hcopies
    cases hstaged : s.ledger.stagedRows.has (b.atRate rate).id with
    | false =>
      rw [Ledger.commit_of_unstaged hstaged]
      exact h
    | true =>
      obtain ⟨-, husers, hrows, hdays⟩ := Ledger.commit_of_staged h.distinct hstaged hday ht
      generalize (s.ledger.commit (b.atRate rate)).2 = l' at husers hrows hdays ⊢
      -- ids are given once, so that no batch but `b` ceases to be staged
      have hsum : ∀ f : TrafficBatch → Int × Int,
          ((s.entered.filter fun x => !l'.stagedRows.has x.id).map f).sum = (s.applied.map f).sum + f b := by
        intro f
        simp only [hrows, Table.has_eraseId]
        exact sum_applied h.ascending hb hstaged f
      refine { h with
        distinct := h.distinct.credited husers
        below := fun b' hb' => ?_
        rows := fun e he => ?_
        users := ?_
        days := fun node day hd => ?_ }
      · show b'.id < l'.stagedRows.nextId
        rw [hrows]
        exact h.below b' hb'
      · have he : e ∈ l'.stagedRows.rows := he
        rw [hrows, Table.rows_eraseId] at he
        exact h.rows e (List.mem_filter.1 he).1
      · show l'.users.rows = _
        rw [husers, h.users, Ledger.credited_credited]
        congr 1
        funext uuid
        exact (hsum _).symm
      · show l'.nodeDay node day = _
        rw [hdays node day hd, h.days node day hd]
        exact (hsum _).symm

/-- Every call keeps the tally sound. -/
theorem call (h : Sound l s) (now : Instant) {c : LedgerCall} (hc : c.Proper) : Sound l (s.call now c) := by
  cases c with
  | stage node day traffic => exact h.stage now hc.1 hc.2
  | read node => exact h.read now node
  | commit i => exact h.commit now i

theorem run (h : Sound l s) {calls : List (Instant × LedgerCall)} (hc : ∀ c ∈ calls, c.2.Proper) :
    Sound l (s.run calls) := by
  induction calls generalizing s with
  | nil => exact h
  | cons c calls ih => exact ih (h.call c.1 (hc c (by simp))) fun d hd => hc d (by simp [hd])

end Sound

/-- What batches add to a day of a node is what was counted in those of that node and day. -/
theorem sum_eq_filter (bs : List TrafficBatch) (node : Int) (day : Day) :
    (bs.map fun b => if b.node = node ∧ b.day = day then b.traffic.total else 0).sum =
      ((bs.filter fun b => b.node = node ∧ b.day = day).map (·.traffic.total)).sum := by
  induction bs with
  | nil => rfl
  | cons b bs ih =>
    rw [List.map_cons, List.sum_cons, ih, List.filter_cons]
    by_cases hkey : b.node = node ∧ b.day = day
    · simp [hkey]
    · simp [hkey]

/-- **Every batch counts once.** After any calls, by whatever callers, on copies however old, what is
recorded for a node on a day is the sum over the batches that were staged for them and no longer are;
each user's upload and download are the sums of the user's entries in the batches that no longer are
staged. To commit a batch that is not staged changes nothing and tells nothing; to commit one that is
takes it from there and tells its totals. -/
theorem run_applied_once {l : Ledger} (hl : l.Fresh) (calls : List (Instant × LedgerCall))
    (hcalls : ∀ c ∈ calls, c.2.Proper) :
    let s := run { ledger := l } calls
    (∀ (node : Int) (day : Day), day.Valid → s.ledger.nodeDay node day =
      ((s.applied.filter fun b => b.node = node ∧ b.day = day).map (·.traffic.total)).sum) ∧
    (∀ e ∈ s.ledger.users.rows, e.2.total = (s.applied.map (·.traffic.ofUser e.2.uuid)).sum) ∧
    s.ledger.users.rows.map (fun e => (e.1, e.2.uuid)) = l.users.rows.map (fun e => (e.1, e.2.uuid)) ∧
    (∀ b, s.ledger.stagedRows.has b.id = false → s.ledger.commit b = ({}, s.ledger)) ∧
    ∀ b ∈ s.copies, s.ledger.stagedRows.has b.id = true →
      (s.ledger.commit b).2.stagedRows.has b.id = false ∧
      ((s.ledger.commit b).1.upload, (s.ledger.commit b).1.download) = b.traffic.total := by
  intro s
  have h : Sound l s := (Sound.initial hl).run hcalls
  refine ⟨fun node day hd => ?_, fun e he => ?_, ?_, fun b hb => Ledger.commit_of_unstaged hb, fun b hb hstaged => ?_⟩
  · rw [h.days node day hd]
    exact sum_eq_filter s.applied node day
  · rw [h.users] at he
    obtain ⟨e₀, he₀, rfl⟩ := List.mem_map.1 he
    rw [UserRow.total_credit, hl.unused e₀ he₀, zero_add]
    rfl
  · rw [h.users]
    simp [Ledger.credited]
  · obtain ⟨hday, ht⟩ := h.proper_copies b hb
    obtain ⟨htotal, -, hrows, -⟩ := Ledger.commit_of_staged h.distinct hstaged hday ht
    refine ⟨?_, htotal⟩
    rw [hrows, Table.has_eraseId]
    simp

/-- A ledger with one user. -/
def sampleLedger : Ledger where
  users := ({} : UserTable).insert
    { uuid := "u", tokenHash := "", group := none, quota := 0, expiresAt := none, speedLimit := none
      createdAt := "" }

/-- What was counted of one known user and one unknown one. -/
def sampleTraffic : Traffic where
  protocol := "vless"
  rate := .one
  upload := 30
  download := 70
  users := [⟨"u", 10, 20⟩, ⟨"x", 20, 50⟩, ⟨"u", 1, 2⟩]

/-- A batch is staged, read and committed; then its copies are committed again, before and after a
second one is staged. -/
def sampleCalls : List (Instant × LedgerCall) :=
  [.stage 1 ⟨2024, 2, 29⟩ sampleTraffic, .read 1, .commit 0, .commit 1, .stage 1 ⟨2024, 2, 29⟩ sampleTraffic,
    .commit 1, .commit 0].map (⟨0⟩, ·)

theorem run_applied_once_sampleCalls :
    sampleLedger.Fresh ∧ (∀ c ∈ sampleCalls, c.2.Proper) ∧
    let s := run { ledger := sampleLedger } sampleCalls
    (∀ (node : Int) (day : Day), day.Valid → s.ledger.nodeDay node day =
      ((s.applied.filter fun b => b.node = node ∧ b.day = day).map (·.traffic.total)).sum) ∧
    (∀ e ∈ s.ledger.users.rows, e.2.total = (s.applied.map (·.traffic.ofUser e.2.uuid)).sum) ∧
    s.ledger.users.rows.map (fun e => (e.1, e.2.uuid)) =
      sampleLedger.users.rows.map (fun e => (e.1, e.2.uuid)) ∧
    (∀ b, s.ledger.stagedRows.has b.id = false → s.ledger.commit b = ({}, s.ledger)) ∧
    ∀ b ∈ s.copies, s.ledger.stagedRows.has b.id = true →
      (s.ledger.commit b).2.stagedRows.has b.id = false ∧
      ((s.ledger.commit b).1.upload, (s.ledger.commit b).1.download) = b.traffic.total := by
  have hfresh : sampleLedger.Fresh := ⟨⟨by decide, by decide⟩, by decide, rfl, rfl⟩
  have hday : Day.Valid ⟨2024, 2, 29⟩ := by constructor <;> decide
  have hcount : sampleTraffic.NonNegative := by constructor <;> decide
  have hproper : ∀ c ∈ sampleCalls, c.2.Proper := by
    simp [sampleCalls, LedgerCall.Proper, hday, hcount]
  exact ⟨hfresh, hproper, run_applied_once hfresh sampleCalls hproper⟩

/-- Though its copies are committed four times, the first batch counts once, and the second not yet. -/
example :
    let s := run { ledger := sampleLedger } sampleCalls
    s.ledger.nodeDay 1 ⟨2024, 2, 29⟩ = (30, 70) ∧ s.ledger.users.rows.map (·.2.total) = [(11, 22)] ∧
    s.applied.map (·.id) = [1] ∧ s.copies.map (·.id) = [1, 1, 2] := by
  decide +kernel

end Tally

end ProxyFleet

import Mathlib.Algebra.BigOperators.Group.List.Basic
import Mathlib.Algebra.Group.Prod
import Mathlib.Algebra.Ring.Int.Defs
import Mathlib.Data.List.Nodup
import ProxyFleet.Proofs.Store.Table
import ProxyFleet.Proofs.Time.Day
import ProxyFleet.Traffic.Ledger

/-!
# What a batch adds to the totals

Upload and download are taken together, as a pair.

* `Traffic.total`, `Traffic.ofUser` : what was counted on the node, and what one user contributed;
* `Traffic.booked` : what goes to the node's day;
* `nodeDay_addNodeDay` : adding to a node's day adds to that day of that node, and to no other;
* `Ledger.Distinct`, `Ledger.credited` : users that are told apart, each credited with an amount;
* `apply_effect` : what applying traffic adds to the users and to the days of nodes;
* `commit_of_unstaged`, `commit_of_staged` : a batch is applied if it is staged, and else nothing is.
-/

namespace ProxyFleet

set_option autoImplicit false

/-- What was counted of a user. -/
def UserTraffic.total (u : UserTraffic) : Int × Int := (u.upload, u.download)

/-- What was counted on the node. -/
def Traffic.total (t : Traffic) : Int × Int := (t.upload, t.download)

/-- What the user with a uuid contributed, in all entries. -/
def Traffic.ofUser (t : Traffic) (uuid : String) : Int × Int :=
  ((t.users.filter (·.uuid == uuid)).map (·.total)).sum

/-- What goes to the node's day: what was counted on the node, unless none of it is above zero. -/
def Traffic.booked (t : Traffic) : Int × Int := if 0 < t.upload ∨ 0 < t.download then t.total else 0

/-- What was counted on the node is not negative. -/
structure Traffic.NonNegative (t : Traffic) : Prop where
  upload : 0 ≤ t.upload
  download : 0 ≤ t.download

/-- Of counts that are not negative, only nothing at all is not recorded. -/
theorem Traffic.NonNegative.booked {t : Traffic} (h : t.NonNegative) : t.booked = t.total := by
  unfold Traffic.booked
  split_ifs with hcounts
  · rfl
  · have hupload : t.upload = 0 := by
      have := h.upload
      omega
    have hdownload : t.download = 0 := by
      have := h.download
      omega
    rw [total, hupload, hdownload]
    rfl

/-- What a user used. -/
def UserRow.total (r : UserRow) : Int × Int := (r.upload, r.download)

/-- The row with more that was used. -/
def UserRow.credit (r : UserRow) (x : Int × Int) : UserRow :=
  { r with upload := r.upload + x.1, download := r.download + x.2 }

@[simp] theorem UserRow.uuid_credit (r : UserRow) (x : Int × Int) : (r.credit x).uuid = r.uuid := rfl

@[simp] theorem UserRow.total_credit (r : UserRow) (x : Int × Int) : (r.credit x).total = r.total + x := rfl

@[simp] theorem UserRow.credit_zero (r : UserRow) : r.credit 0 = r := by
  cases r
  simp [UserRow.credit]

theorem UserRow.credit_credit (r : UserRow) (x y : Int × Int) : (r.credit x).credit y = r.credit (x + y) := by
  simp [UserRow.credit, Int.add_assoc]

namespace Ledger

/-! ## Days of nodes -/

/-- What is recorded for a node on a day is what the first row of them says. -/
theorem nodeDay_eq (l : Ledger) (node : Int) (day : Day) : l.nodeDay node day =
    ((l.nodeDayRows.rows.find? fun e => e.2.node == node && e.2.day == day.text).map
      fun e => (e.2.upload, e.2.download)).getD 0 := by
  unfold nodeDay Table.select
  rw [List.head?_filter]
  cases l.nodeDayRows.rows.find? fun e => e.2.node == node && e.2.day == day.text with
  | none => rfl
  | some e => rfl

/-- The first row that meets a condition is the same one after a change that does not matter to it. -/
theorem find?_modify {ρ : Type} (t : Table ρ) (p q : ρ → Bool) {f : ρ → ρ} (hf : ∀ r, q (f r) = q r) :
    (t.modify (fun _ r => p r) f).rows.find? (fun e => q e.2) =
      (t.rows.find? fun e => q e.2).map fun e => if p e.2 then (e.1, f e.2) else (e.1, e.2) := by
  rw [Table.rows_modify, List.find?_map]
  congr 2
  funext e
  dsimp only [Function.comp]
  split_ifs
  · exact hf e.2
  · rfl

/-- Adding to a node's day adds to that day of that node, and to no other. Days are told apart by their
texts. -/
theorem nodeDay_addNodeDay (l : Ledger) (node : Int) (protocol : String) (day : Day) (upload download : Int)
    (node' : Int) (day' : Day) :
    nodeDay { l with nodeDayRows := addNodeDay l.nodeDayRows node protocol day upload download } node' day' =
      l.nodeDay node' day' + if node = node' ∧ day.text = day'.text then (upload, download) else 0 := by
  have hsame : ∀ r : NodeDayRow, (r.node == node' && r.day == day'.text) = true →
      ((r.node == node && r.day == day.text) = true ↔ node = node' ∧ day.text = day'.text) := by
    intro r hr
    simp only [Bool.and_eq_true, beq_iff_eq] at hr ⊢
    rw [hr.1, hr.2, eq_comm, eq_comm (a := day'.text)]
  have hmodify : ∀ p : NodeDayRow → Bool, _ := fun p => find?_modify l.nodeDayRows p
    (fun r => r.node == node' && r.day == day'.text)
    (f := fun r => { r with upload := r.upload + upload, download := r.download + download }) fun _ => rfl
  rw [nodeDay_eq, nodeDay_eq]
  dsimp only
  unfold addNodeDay
  dsimp only
  split_ifs with hany hkey hkey
  · obtain ⟨rfl, htext⟩ := hkey
    rw [htext] at hany ⊢
    obtain ⟨e, he⟩ := Option.isSome_iff_exists.1 (List.find?_isSome.2 (List.any_eq_true.1 hany))
    have hit := List.find?_some he
    rw [hmodify, he]
    simp only [Option.map_some, hit, if_true, Option.getD_some]
    rfl
  · rw [hmodify, add_zero]
    cases he : l.nodeDayRows.rows.find? fun e => e.2.node == node' && e.2.day == day'.text with
    | none => rfl
    | some e =>
      have hit := List.find?_some he
      have hother := mt (hsame e.2 hit).1 hkey
      simp only [Option.map_some, if_neg hother]
  · -- The day of the node is new, so nothing was recorded for it.
    obtain ⟨rfl, htext⟩ := hkey
    rw [htext] at hany ⊢
    have hnone : (l.nodeDayRows.rows.find? fun e => e.2.node == node && e.2.day == day'.text) = none := by
      simpa using hany
    rw [Table.rows_insert, List.find?_append, hnone]
    simp
  · have hother : (node == node' && day.text == day'.text) = false := by
      simpa using fun hnode htext => hkey ⟨hnode, htext⟩
    rw [Table.rows_insert, List.find?_append, add_zero]
    simp [hother]

/-! ## Users -/

/-- No two users have one id, or one uuid. -/
structure Distinct (l : Ledger) : Prop where
  ids : (l.users.rows.map (·.1)).Nodup
  uuids : (l.users.rows.map (·.2.uuid)).Nodup

/-- Each user credited with what is a uuid's. -/
def credited (rows : List (Int × UserRow)) (x : String → Int × Int) : List (Int × UserRow) :=
  rows.map fun e => (e.1, e.2.credit (x e.2.uuid))

theorem credited_zero (rows : List (Int × UserRow)) : credited rows (fun _ => 0) = rows := by
  simp [credited]

theorem credited_credited (rows : List (Int × UserRow)) (x y : String → Int × Int) :
    credited (credited rows x) y = credited rows fun uuid => x uuid + y uuid := by
  simp [credited, UserRow.credit_credit]

theorem Distinct.credited {l l' : Ledger} (h : l.Distinct) {x : String → Int × Int}
    (hrows : l'.users.rows = credited l.users.rows x) : l'.Distinct := by
  have hids : (Ledger.credited l.users.rows x).map (·.1) = l.users.rows.map (·.1) := by
    simp [Ledger.credited]
  have huuids : (Ledger.credited l.users.rows x).map (·.2.uuid) = l.users.rows.map (·.2.uuid) := by
    simp [Ledger.credited]
  exact ⟨by rw [hrows, hids]; exact h.ids, by rw [hrows, huuids]; exact h.uuids⟩

theorem users_addEntry {l : Ledger} (h : l.Distinct) (rate : Binary64) (day : Day) (summary : CommitSummary)
    (u : UserTraffic) : (addEntry rate day (summary, l) u).2.users.rows =
      credited l.users.rows fun uuid => if uuid = u.uuid then u.total else 0 := by
  unfold addEntry
  dsimp only
  split_ifs with hnothing
  · have hzero : u.total = 0 := by
      rw [UserTraffic.total, hnothing.1, hnothing.2]
      rfl
    simp [hzero, credited_zero]
  · unfold userId? Table.select
    rw [List.head?_filter]
    cases hfind : l.users.rows.find? fun e => e.2.uuid == u.uuid with
    | none =>
      have hunknown : ∀ e ∈ l.users.rows, e.2.uuid ≠ u.uuid := by simpa using hfind
      have hnone : credited l.users.rows (fun uuid => if uuid = u.uuid then u.total else 0) = l.users.rows := by
        refine (List.map_congr_left fun e he => ?_).trans (List.map_id _)
        dsimp only
        rw [if_neg (hunknown e he), UserRow.credit_zero]
        rfl
      exact hnone.symm
    | some e =>
      have hmem := List.mem_of_find?_eq_some hfind
      have huuid : e.2.uuid = u.uuid := by simpa using List.find?_some hfind
      dsimp only [Option.map_some]
      rw [Table.rows_modifyId]
      refine List.map_congr_left fun e' he' => ?_
      -- the row is found by its uuid and changed by its id
      have hsame : e'.1 = e.1 ↔ e'.2.uuid = u.uuid := by
        rw [← huuid]
        exact ⟨fun hid => congrArg (·.2.uuid) (List.inj_on_of_nodup_map h.ids he' hmem hid),
          fun hid => congrArg (·.1) (List.inj_on_of_nodup_map h.uuids he' hmem hid)⟩
      simp only [hsame]
      split_ifs
      · rfl
      · rw [UserRow.credit_zero]

/-! ## Batches -/

theorem stagedRows_addEntry (rate : Binary64) (day : Day) (s : CommitSummary × Ledger) (u : UserTraffic) :
    (addEntry rate day s u).2.stagedRows = s.2.stagedRows ∧ (addEntry rate day s u).2.nodeDayRows = s.2.nodeDayRows := by
  unfold addEntry
  dsimp only
  split_ifs
  · exact ⟨rfl, rfl⟩
  · split
    · exact ⟨rfl, rfl⟩
    · exact ⟨rfl, rfl⟩

/-- Adding what users contributed gives each user the sum of the user's entries, and leaves what is
staged and the days of nodes alone. -/
theorem foldl_addEntry {l : Ledger} (h : l.Distinct) (rate : Binary64) (day : Day) (summary : CommitSummary)
    (us : List UserTraffic) :
    let l' := (us.foldl (addEntry rate day) (summary, l)).2
    l'.users.rows = credited l.users.rows (fun uuid => ((us.filter (·.uuid == uuid)).map (·.total)).sum) ∧
    l'.stagedRows = l.stagedRows ∧ l'.nodeDayRows = l.nodeDayRows := by
  induction us generalizing summary l with
  | nil => exact ⟨(credited_zero _).symm, rfl, rfl⟩
  | cons u us ih =>
    have hrows := users_addEntry h rate day summary u
    obtain ⟨hstaged, hdays⟩ := stagedRows_addEntry rate day (summary, l) u
    obtain ⟨hrows', hstaged', hdays'⟩ := ih (h.credited hrows) (addEntry rate day (summary, l) u).1
    refine ⟨?_, hstaged'.trans hstaged, hdays'.trans hdays⟩
    rw [List.foldl_cons, hrows', hrows, credited_credited]
    congr 1
    funext uuid
    by_cases huuid : uuid = u.uuid
    · simp [huuid]
    · simp [huuid, Ne.symm huuid]

/-- Applying traffic adds to each user what the user contributed, and to the node's day what goes there,
and it leaves what is staged alone. -/
theorem apply_effect {l : Ledger} (h : l.Distinct) (node : Int) (day : Day) (t : Traffic) :
    let l' := (l.apply node day t).2
    l'.users.rows = credited l.users.rows t.ofUser ∧ l'.stagedRows = l.stagedRows ∧
    ∀ node' day', l'.nodeDay node' day' =
      l.nodeDay node' day' + if node = node' ∧ day.text = day'.text then t.booked else 0 := by
  obtain ⟨hrows, hstaged, hdays⟩ := foldl_addEntry h t.rate day {} t.users
  unfold apply
  generalize t.users.foldl (addEntry t.rate day) ({}, l) = r at hrows hstaged hdays
  refine ⟨hrows, hstaged, fun node' day' => ?_⟩
  have hkept : r.2.nodeDay node' day' = l.nodeDay node' day' := by
    rw [nodeDay, hdays, nodeDay]
  dsimp only
  rw [← hkept, Traffic.booked]
  split_ifs with hcounts hkey hkey
  · rw [nodeDay_addNodeDay r.2, if_pos hkey]
    rfl
  · rw [nodeDay_addNodeDay r.2, if_neg hkey]
  · rw [add_zero]
  · rw [add_zero]

/-- A batch that is not staged, any more or at all, is not applied. -/
theorem commit_of_unstaged {l : Ledger} {b : TrafficBatch} (h : l.stagedRows.has b.id = false) :
    l.commit b = ({}, l) := by
  rw [commit, h]
  rfl

/-- A batch that is staged is taken from there and applied, and the answer tells its totals. -/
theorem commit_of_staged {l : Ledger} (hl : l.Distinct) {b : TrafficBatch} (h : l.stagedRows.has b.id = true)
    (hday : b.day.Valid) (ht : b.traffic.NonNegative) :
    let l' := (l.commit b).2
    ((l.commit b).1.upload, (l.commit b).1.download) = b.traffic.total ∧
    l'.users.rows = credited l.users.rows b.traffic.ofUser ∧ l'.stagedRows = l.stagedRows.eraseId b.id ∧
    ∀ node day, Day.Valid day → l'.nodeDay node day =
      l.nodeDay node day + if b.node = node ∧ b.day = day then b.traffic.total else 0 := by
  obtain ⟨husers, hrows, hdays⟩ := apply_effect (l := { l with stagedRows := l.stagedRows.eraseId b.id })
    ⟨hl.ids, hl.uuids⟩ b.node b.day b.traffic
  rw [commit, if_pos h]
  refine ⟨rfl, husers, hrows, fun node day hd => ?_⟩
  rw [hdays, ht.booked]
  simp only [Day.text_inj hday hd]
  rfl

end Ledger

end ProxyFleet

import ProxyFleet.Proofs.Json.Reading
import ProxyFleet.Proofs.Traffic.Totals

/-!
# Days of users

A day of a user is known by the user, the rate and the text of the day, where the two zeros are one
rate. No two rows are of one such day, so what is added to a day is added to one row.

* `DayKey`, `UserDayRow.key`, `UserDayRow.amount` : what a row is known by, and what it says;
* `Ledger.dayKeys`, `Ledger.daySum` : the days there are, and the sum over those of some kind;
* `Ledger.dayKeys_addUserDay`, `Ledger.daySum_addUserDay` : what adding to a day does to both;
* `Ledger.daySum_userDays` : the days of a user that are read sum up to the rows of the user.
-/

namespace ProxyFleet

set_option autoImplicit false

/-- What a day of a user is known by. -/
structure DayKey where
  user : Int
  rate : Int
  day : String
  deriving DecidableEq

namespace DayKey

/-- The key of a day, where zero is one rate. -/
def of (user : Int) (rate : Binary64) (day : Day) : DayKey := ⟨user, rate.orderKey, day.text⟩

end DayKey

namespace UserDayRow

def key (r : UserDayRow) : DayKey := ⟨r.user, r.rate.orderKey, r.day⟩

/-- What was counted. -/
def amount (r : UserDayRow) : Int × Int := (r.upload, r.download)

/-- The row with more that was counted. -/
def grown (r : UserDayRow) (x : Int × Int) : UserDayRow :=
  { r with upload := r.upload + x.1, download := r.download + x.2 }

@[simp] theorem key_grown (r : UserDayRow) (x : Int × Int) : (r.grown x).key = r.key := rfl

@[simp] theorem amount_grown (r : UserDayRow) (x : Int × Int) : (r.grown x).amount = r.amount + x := rfl

end UserDayRow

/-- What was counted of a user on a day. -/
def UserDay.amount (d : UserDay) : Int × Int := (d.upload, d.download)

/-- Either zero is kept as the one without a sign, which counts as the same rate. -/
theorem Binary64.orderKey_unsigned (x : Binary64) : (if x.isZero then zero else x).orderKey = x.orderKey := by
  split_ifs with hzero
  · have habs : x.absBits = 0 := by simpa [isZero] using hzero
    have hleft : zero.orderKey = 0 := by decide
    rw [hleft, orderKey, habs]
    simp
  · rfl

namespace Ledger

variable {t : Table UserDayRow}

/-- The days there are. -/
def dayKeys (t : Table UserDayRow) : List DayKey := t.rows.map (·.2.key)

/-- The sum over the days of some kind. -/
def daySum (t : Table UserDayRow) (p : DayKey → Bool) : Int × Int :=
  ((t.rows.filter (p ·.2.key)).map (·.2.amount)).sum

/-! ## Adding to a day -/

/-- The row of a day that is new. -/
def opened (user : Int) (rate : Binary64) (day : Day) (x : Int × Int) : UserDayRow :=
  ⟨user, if rate.isZero then .zero else rate, day.text, x.1, x.2⟩

@[simp] theorem key_opened (user : Int) (rate : Binary64) (day : Day) (x : Int × Int) :
    (opened user rate day x).key = DayKey.of user rate day := by
  simp only [opened, UserDayRow.key, DayKey.of, Binary64.orderKey_unsigned]

/-- Adding to a day adds to the row that has its key, or inserts one if none has. -/
theorem addUserDay_eq (t : Table UserDayRow) (user : Int) (rate : Binary64) (day : Day) (upload download : Int) :
    addUserDay t user rate day upload download =
      if DayKey.of user rate day ∈ dayKeys t then
        t.modify (fun _ r => decide (r.key = DayKey.of user rate day)) (·.grown (upload, download))
      else t.insert (opened user rate day (upload, download)) := by
  have hit : ∀ r : UserDayRow, (r.user == user && sameRate r.rate rate && r.day == day.text) =
      decide (r.key = DayKey.of user rate day) := by
    intro r
    rw [Bool.eq_iff_iff]
    simp [sameRate, UserDayRow.key, DayKey.of, and_assoc]
  have hany : (t.rows.any fun e => decide (e.2.key = DayKey.of user rate day)) = true ↔
      DayKey.of user rate day ∈ dayKeys t := by
    simp only [List.any_eq_true, decide_eq_true_eq, dayKeys, List.mem_map]
  unfold addUserDay
  dsimp only
  simp only [hit, hany]
  rfl

theorem dayKeys_addUserDay (t : Table UserDayRow) (user : Int) (rate : Binary64) (day : Day)
    (upload download : Int) :
    dayKeys (addUserDay t user rate day upload download) =
      dayKeys t ++ if DayKey.of user rate day ∈ dayKeys t then [] else [DayKey.of user rate day] := by
  rw [addUserDay_eq]
  by_cases hthere : DayKey.of user rate day ∈ dayKeys t
  · rw [if_pos hthere, if_pos hthere, List.append_nil, dayKeys, Table.rows_modify, List.map_map]
    refine List.map_congr_left fun e _ => ?_
    dsimp only [Function.comp]
    split_ifs
    · rfl
    · rfl
  · rw [if_neg hthere, if_neg hthere, dayKeys, Table.rows_insert, List.map_append, List.map_singleton, key_opened]
    rfl

theorem nodup_addUserDay (h : (dayKeys t).Nodup) (user : Int) (rate : Binary64) (day : Day)
    (upload download : Int) : (dayKeys (addUserDay t user rate day upload download)).Nodup := by
  rw [dayKeys_addUserDay]
  split_ifs with hthere
  · rwa [List.append_nil]
  · refine List.nodup_append.2 ⟨h, List.nodup_singleton _, ?_⟩
    rintro k hk _ hother rfl
    exact hthere (List.mem_singleton.1 hother ▸ hk)

/-- Where one of the rows has a key and grows, a sum over keys grows if it is over this one. -/
theorem sum_grown {rows : List (Int × UserDayRow)} (h : (rows.map (·.2.key)).Nodup) {k : DayKey}
    (hk : k ∈ rows.map (·.2.key)) (p : DayKey → Bool) (x : Int × Int) :
    (((rows.map fun e => if decide (e.2.key = k) then (e.1, e.2.grown x) else (e.1, e.2)).filter
      (p ·.2.key)).map (·.2.amount)).sum =
      ((rows.filter (p ·.2.key)).map (·.2.amount)).sum + if p k then x else 0 := by
  induction rows with
  | nil => simp at hk
  | cons e rows ih =>
    obtain ⟨hnew, hrest⟩ := List.nodup_cons.1 h
    by_cases he : e.2.key = k
    · -- no row further on has the key
      have hsame : (rows.map fun e => if decide (e.2.key = k) then (e.1, e.2.grown x) else (e.1, e.2)) = rows := by
        refine (List.map_congr_left fun e' he' => ?_).trans (List.map_id rows)
        have hne : e'.2.key ≠ k := fun heq => hnew (List.mem_map.2 ⟨e', he', heq.trans he.symm⟩)
        simp [hne]
      rw [List.map_cons, hsame, if_pos (decide_eq_true he)]
      cases hp : p k with
      | true => simp [he, hp, add_right_comm]
      | false => simp [he, hp]
    · have hk' : k ∈ rows.map (·.2.key) := (List.mem_cons.1 hk).resolve_left fun heq => he heq.symm
      rw [List.map_cons, if_neg (by simpa using he)]
      have hsum := ih hrest hk'
      cases hp : p e.2.key with
      | true =>
        simp only [List.filter_cons, hp, if_true, List.map_cons, List.sum_cons, hsum, add_assoc]
      | false =>
        simp only [List.filter_cons, hp, Bool.false_eq_true, if_false, hsum]

theorem daySum_addUserDay (h : (dayKeys t).Nodup) (user : Int) (rate : Binary64) (day : Day)
    (upload download : Int) (p : DayKey → Bool) :
    daySum (addUserDay t user rate day upload download) p =
      daySum t p + if p (DayKey.of user rate day) then (upload, download) else 0 := by
  rw [addUserDay_eq]
  by_cases hthere : DayKey.of user rate day ∈ dayKeys t
  · rw [if_pos hthere, daySum, Table.rows_modify, sum_grown h hthere]
    rfl
  · rw [if_neg hthere, daySum, Table.rows_insert, List.filter_append, List.map_append, List.sum_append]
    congr 1
    cases hp : p (DayKey.of user rate day) with
    | true =>
      rw [List.filter_cons_of_pos (by rwa [key_opened])]
      simp [UserDayRow.amount, opened]
    | false =>
      rw [List.filter_cons_of_neg (by simp [hp])]
      simp

/-! ## Reading -/

theorem daySum_userDays (l : Ledger) (user : Int) :
    Yields (l.userDays user) fun days =>
      (days.map (·.amount)).sum = daySum l.userDayRows (·.user == user) := by
  have hread : ∀ r : UserDayRow, Yields r.total fun day => day.amount = r.amount := fun r =>
    (Yields.any (Day.read r.day)).mapError.bind fun _ _ => .ok rfl
  intro days hdays
  have hamounts : days.map (·.amount) = List.map UserDayRow.amount _ :=
    Yields.mapM_keys (fun r _ => hread r) days hdays
  rw [hamounts, daySum]
  -- days are put in order twice, which no sum depends on
  have hperm := (List.mergeSort_perm _ fun a b : UserDayRow => decide (b.day ≤ a.day)).trans
    (List.mergeSort_perm ((l.userDayRows.select (·.user == user)).map (·.2)) fun a b : UserDayRow =>
      decide (a.rate.orderKey ≤ b.rate.orderKey))
  rw [(hperm.map _).sum_eq, List.map_map]
  rfl

end Ledger

end ProxyFleet

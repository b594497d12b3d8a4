import Mathlib.Algebra.BigOperators.Group.Finset.Basic
import Mathlib.Algebra.Order.BigOperators.Group.Finset
import Mathlib.Algebra.Order.BigOperators.Group.List
import Mathlib.Algebra.Order.Monoid.Prod
import ProxyFleet.Proofs.Nodes.Rate
import ProxyFleet.Proofs.Traffic.Pull

/-!
# When accounts only rise

Batches are added as they are, so an account falls if what they have for it is below zero, taken together.

* `rated_nonneg` : a rate keeps what is not negative so;
* `Traffic.Upward`, `RemoteStats.Upward` : counters none of which is negative, as staged and as an agent has them;
* `TrafficBatch.share_nonneg` : such a batch lowers no account;
* `Ledger.Raises`, `Ledger.raises_iff` : batches that lower no account, by users, rates and days;
* `Collection.pull_balance_iff` : when a pull lowers no account.
-/

namespace ProxyFleet

set_option autoImplicit false

/-! ## Counters that are not negative -/

theorem rated_nonneg {bytes : Int} (h : 0 ≤ bytes) {rate : Binary64} (hrate : Counts rate) : 0 ≤ rated bytes rate := by
  have hpositive : rate.isNegative = false := by
    have := hrate.2
    simp only [Binary64.isPositive, Bool.and_eq_true, Bool.not_eq_true'] at this
    exact this.1.1
  have hbytes : (Binary64.ofInt bytes).isNegative = false := by
    rw [Binary64.ofInt, Binary64.isNegative_ofRatio]
    exact decide_eq_false (by omega)
  exact Word64.ofDouble_nonneg (Binary64.isNegative_mul hbytes hpositive)

/-- What was counted on the node and of each user is not negative. -/
structure Traffic.Upward (t : Traffic) : Prop where
  total : t.NonNegative
  users : ∀ u ∈ t.users, 0 ≤ u.total

/-- What the agent has counted, in total and of each user, is not negative. -/
structure RemoteStats.Upward (stats : RemoteStats) : Prop where
  uplink : 0 ≤ stats.uplinkBytes
  downlink : 0 ≤ stats.downlinkBytes
  users : ∀ u ∈ stats.users, 0 ≤ u.uplinkBytes ∧ 0 ≤ u.downlinkBytes

theorem RemoteStats.Upward.rated {stats : RemoteStats} (h : stats.Upward) (n : Node) :
    (ratedTraffic n stats).Upward := by
  have hrate : Counts n.effectiveRate := counts_normalizeRate n.rate
  refine ⟨⟨rated_nonneg h.uplink hrate, rated_nonneg h.downlink hrate⟩, fun u hu => ?_⟩
  obtain ⟨remote, hremote, rfl⟩ := List.mem_map.1 hu
  obtain ⟨huplink, hdownlink⟩ := h.users remote (List.mem_filter.1 hremote).1
  exact ⟨rated_nonneg huplink hrate, rated_nonneg hdownlink hrate⟩

theorem Traffic.Upward.ofUser {t : Traffic} (h : t.Upward) (uuid : String) : 0 ≤ t.ofUser uuid := by
  refine List.sum_nonneg fun x hx => ?_
  obtain ⟨u, hu, rfl⟩ := List.mem_map.1 hx
  exact h.users u (List.mem_filter.1 hu).1

theorem Traffic.Upward.booked {t : Traffic} (h : t.Upward) : 0 ≤ t.booked := by
  rw [h.total.booked]
  exact ⟨h.total.upload, h.total.download⟩

theorem Traffic.booked_nonneg_iff (t : Traffic) :
    0 ≤ t.booked ↔ (0 < t.upload ∨ 0 < t.download → 0 ≤ t.upload ∧ 0 ≤ t.download) := by
  unfold Traffic.booked
  split_ifs with hcounts
  · simp [hcounts, Traffic.total, Prod.le_def]
  · simp [hcounts]

theorem TrafficBatch.share_nonneg {b : TrafficBatch} (h : b.traffic.Upward) (l : Ledger) (a : Account) :
    0 ≤ b.share l a := by
  have huser : ∀ uuid? : Option String, 0 ≤ (uuid?.map b.traffic.ofUser).getD 0 := by
    rintro (_ | uuid)
    · exact le_rfl
    · exact h.ofUser uuid
  unfold TrafficBatch.share Traffic.share
  cases a with
  | user id => exact huser _
  | userDay key =>
    dsimp only
    split_ifs
    · exact huser _
    · exact le_rfl
  | nodeDay node day =>
    dsimp only
    split_ifs
    · exact h.booked
    · exact le_rfl

/-! ## Batches by rates and days -/

/-- The rate and the day of a batch, as days of users are told apart. -/
def TrafficBatch.slot (b : TrafficBatch) : Int × String := (b.traffic.rate.orderKey, b.day.text)

theorem sum_eq_sum_slots (bs : List TrafficBatch) (f : TrafficBatch → Int × Int) (slots : Finset (Int × String))
    (h : ∀ b ∈ bs, b.slot ∈ slots) :
    (bs.map f).sum = ∑ slot ∈ slots, ((bs.filter (·.slot = slot)).map f).sum := by
  induction bs with
  | nil => simp
  | cons b bs ih =>
    have hcons : ∀ slot, (((b :: bs).filter (·.slot = slot)).map f).sum =
        (if b.slot = slot then f b else 0) + ((bs.filter (·.slot = slot)).map f).sum := by
      intro slot
      by_cases hslot : b.slot = slot
      · simp [hslot]
      · simp [hslot]
    rw [List.map_cons, List.sum_cons, ih fun b' hb' => h b' (List.mem_cons_of_mem b hb'),
      Finset.sum_congr rfl fun slot _ => hcons slot, Finset.sum_add_distrib, Finset.sum_ite_eq,
      if_pos (h b List.mem_cons_self)]

namespace Ledger

variable {l l' : Ledger} {bs : List TrafficBatch}

/-- What the batches have of each known user, at one rate on one day, is not negative when taken together,
nor is what they have of the node on one day. -/
structure Raises (l : Ledger) (bs : List TrafficBatch) : Prop where
  users : ∀ uuid, (l.userId? uuid).isSome = true → ∀ slot : Int × String,
    0 ≤ ((bs.filter (·.slot = slot)).map (·.traffic.ofUser uuid)).sum
  node : ∀ day : Day, 0 ≤ ((bs.filter (·.day.text = day.text)).map (·.traffic.booked)).sum

theorem sum_share_userDay (key : DayKey) {uuid : String} (h : l.uuid? key.user = some uuid) :
    (bs.map (·.share l (.userDay key))).sum =
      ((bs.filter (·.slot = (key.rate, key.day))).map (·.traffic.ofUser uuid)).sum := by
  have hshare : ∀ b : TrafficBatch, b.share l (.userDay key) =
      if b.slot = (key.rate, key.day) then b.traffic.ofUser uuid else 0 := by
    intro b
    have hkey : key = DayKey.of key.user b.traffic.rate b.day ↔ b.slot = (key.rate, key.day) := by
      obtain ⟨user, rate, day⟩ := key
      simp [DayKey.of, TrafficBatch.slot, eq_comm]
    simp only [TrafficBatch.share, Traffic.share, hkey, h]
    rfl
  rw [List.map_congr_left fun b _ => hshare b, List.sum_map_ite]
  simp

theorem sum_share_nodeDay {node : Int} (hnode : ∀ b ∈ bs, b.node = node) (day : Day) :
    (bs.map (·.share l (.nodeDay node day))).sum =
      ((bs.filter (·.day.text = day.text)).map (·.traffic.booked)).sum := by
  have hshare : ∀ b ∈ bs, b.share l (.nodeDay node day) = if b.day.text = day.text then b.traffic.booked else 0 := by
    intro b hb
    simp [TrafficBatch.share, Traffic.share, hnode b hb]
  rw [List.map_congr_left hshare, List.sum_map_ite]
  simp

/-- Batches of one node lower no account exactly if they do so for no user, rate and day and for no day of
the node: what a user has used is the sum over rates and days. -/
theorem raises_iff (h : l.Distinct) {node : Int} (hnode : ∀ b ∈ bs, b.node = node) :
    l.Raises bs ↔ ∀ a, 0 ≤ (bs.map (·.share l a)).sum := by
  constructor
  · intro hraises a
    have hknown : ∀ {id : Int} {uuid : String}, l.uuid? id = some uuid → (l.userId? uuid).isSome = true := by
      intro id uuid huuid
      rw [(userId?_eq_some_iff h).2 huuid]
      rfl
    cases a with
    | user id =>
      cases huuid : l.uuid? id with
      | none => simp [TrafficBatch.share, Traffic.share, huuid]
      | some uuid =>
        have hshare : ∀ b : TrafficBatch, b.share l (.user id) = b.traffic.ofUser uuid := by
          intro b
          simp [TrafficBatch.share, Traffic.share, huuid]
        rw [List.map_congr_left fun b _ => hshare b,
          sum_eq_sum_slots bs _ (bs.map (·.slot)).toFinset (by simp +contextual [List.mem_map_of_mem])]
        exact Finset.sum_nonneg fun slot _ => hraises.users uuid (hknown huuid) slot
    | userDay key =>
      cases huuid : l.uuid? key.user with
      | none => simp [TrafficBatch.share, Traffic.share, huuid]
      | some uuid =>
        rw [sum_share_userDay key huuid]
        exact hraises.users uuid (hknown huuid) _
    | nodeDay node' day =>
      by_cases hsame : node' = node
      · subst hsame
        rw [sum_share_nodeDay hnode]
        exact hraises.node day
      · have hshare : ∀ b ∈ bs, b.share l (.nodeDay node' day) = 0 := by
          intro b hb
          simp [TrafficBatch.share, Traffic.share, hnode b hb, Ne.symm hsame]
        rw [List.map_congr_left hshare]
        simp
  · intro hshares
    refine ⟨fun uuid hknown slot => ?_, fun day => ?_⟩
    · obtain ⟨id, hid⟩ := Option.isSome_iff_exists.1 hknown
      have huuid : l.uuid? id = some uuid := (userId?_eq_some_iff h).1 hid
      rw [← sum_share_userDay ⟨id, slot.1, slot.2⟩ huuid]
      exact hshares _
    · rw [← sum_share_nodeDay (l := l) hnode]
      exact hshares _

theorem Booked.rises_iff (h : Booked l bs l') :
    (∀ a, l.balance a ≤ l'.balance a) ↔ ∀ a, 0 ≤ (bs.map (·.share l a)).sum :=
  forall_congr' fun a => by rw [h.balance, le_add_iff_nonneg_right]

/-- Of one batch, all that counts is what it has of each known user and of the node. -/
theorem raises_singleton {b : TrafficBatch} : l.Raises [b] ↔
    (∀ uuid, (l.userId? uuid).isSome = true → 0 ≤ b.traffic.ofUser uuid) ∧ 0 ≤ b.traffic.booked := by
  constructor
  · rintro ⟨husers, hnode⟩
    exact ⟨fun uuid hknown => by simpa using husers uuid hknown b.slot, by simpa using hnode b.day⟩
  · rintro ⟨husers, hnode⟩
    refine ⟨fun uuid hknown slot => ?_, fun day => ?_⟩
    · by_cases hslot : b.slot = slot
      · simpa [hslot] using husers uuid hknown
      · simp [hslot]
    · by_cases hday : b.day.text = day.text
      · simpa [hday] using hnode
      · simp [hday]

end Ledger

namespace Collection

open Ledger

variable {s : Collection} (settings : AgentSettings) (n : Node) (now : Instant)

theorem pull_balance_iff (h : s.ledger.Keyed) :
    (∀ a, s.ledger.balance a ≤ (s.pull settings n now).2.ledger.balance a) ↔
      s.ledger.Raises (s.counted settings n now) := by
  rw [(booked_counted settings n now h).rises_iff, raises_iff h.distinct (node_of_counted settings n now)]

theorem counted_of_unstaged {stats : RemoteStats} (hstaged : s.ledger.staged n.id = .ok [])
    (hstats : (s.agents.call (Endpoint.ofNode n settings) (.stats true)).1 = .ok stats) :
    s.counted settings n now = [n.drained stats now] := by
  rw [counted, hstaged]
  dsimp only
  rw [hstats]
  rfl

end Collection

end ProxyFleet

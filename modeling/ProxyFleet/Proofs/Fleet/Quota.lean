import ProxyFleet.CommandLine.Run
import ProxyFleet.Proofs.Fleet.Balance
import ProxyFleet.Proofs.Number.Word64

/-!
# Quotas

The quota of a user is kept in bytes, and compared with the sum of what the user has sent and received.
A program stops where the product or the sum is beyond 64 bits.

* `quotaOfGib?_eq` : the quotas that can be computed are exact;
* `User.Metered` : a user whose quota alone decides, with counters that fit;
* `User.Metered.exact_iff`, `User.Metered.stops` : when use and decision are exact, and when there are none;
* `Fleet.run_row` : a user keeps the quota, whatever is counted later;
* `Fleet.users_add_exact_iff` : the same for the users that a command adds.
-/

namespace ProxyFleet

set_option autoImplicit false

/-! ## Quotas in bytes -/

/-- The three products are beyond 64 bits if the last of them is, and only then. -/
theorem quotaOfGib?_eq (gib : Int) : quotaOfGib? gib = Word64.ofInt? (gib * 2 ^ 30) := by
  have hsize : Nat.pow 2 63 = 9223372036854775808 := rfl
  unfold quotaOfGib?
  by_cases hmebi : SixtyFourBits (gib * 1024)
  · rw [Word64.ofInt?_eq_some hmebi, Option.bind_eq_bind, Option.bind_some]
    by_cases hkibi : SixtyFourBits (gib * 1024 * 1024)
    · have hproduct : gib * 1024 * 1024 * 1024 = gib * 2 ^ 30 := by omega
      rw [Word64.ofInt?_eq_some hkibi, Option.bind_some, hproduct]
    · rw [Word64.ofInt?_eq_none hkibi, Option.bind_none, Word64.ofInt?_eq_none]
      unfold SixtyFourBits at *
      omega
  · rw [Word64.ofInt?_eq_none hmebi, Option.bind_eq_bind, Option.bind_none, Word64.ofInt?_eq_none]
    unfold SixtyFourBits at *
    omega

theorem quotaOfGib?_eq_some {gib : Int} (hpositive : 0 < gib) (h : gib < 2 ^ 33) :
    quotaOfGib? gib = some (gib * 2 ^ 30) := by
  have hsize : Nat.pow 2 63 = 9223372036854775808 := rfl
  rw [quotaOfGib?_eq, Word64.ofInt?_eq_some]
  unfold SixtyFourBits
  omega

theorem quotaOfGib?_eq_none {gib : Int} (h : 2 ^ 33 ≤ gib) : quotaOfGib? gib = none := by
  have hsize : Nat.pow 2 63 = 9223372036854775808 := rfl
  rw [quotaOfGib?_eq, Word64.ofInt?_eq_none]
  unfold SixtyFourBits
  omega

namespace User

variable {u : User} {gib : Int} {now : Instant}

/-! ## Who may connect -/

/-- The use of the user and the decision on it are those of exact arithmetic. -/
structure Exact (u : User) (gib : Int) (now : Instant) : Prop where
  used : u.used? = some (u.upload + u.download)
  eligible : u.eligible? now = some (decide (u.upload + u.download < gib * 2 ^ 30))

/-- A user who is neither banned nor expired, with a quota of so many GiB and counters that fit 64 bits. -/
structure Metered (u : User) (gib : Int) (now : Instant) : Prop where
  positive : 0 < gib
  quota : u.quota = gib * 2 ^ 30
  banned : u.banned = false
  unexpired : u.expiresAt.any (· ≤ now) = false
  upload : 0 ≤ u.upload ∧ u.upload < 2 ^ 63
  download : 0 ≤ u.download ∧ u.download < 2 ^ 63

theorem used?_eq_none (hsum : 2 ^ 63 ≤ u.upload + u.download) : u.used? = none := by
  have hsize : Nat.pow 2 63 = 9223372036854775808 := rfl
  refine Word64.ofInt?_eq_none ?_
  unfold SixtyFourBits
  omega

namespace Metered

variable (h : u.Metered gib now)

include h

theorem eligible?_eq :
    u.eligible? now = u.used?.map fun used => decide (used < gib * 2 ^ 30) := by
  have hlimited : u.quota ≠ 0 := by
    have hpositive := h.positive
    rw [h.quota]
    omega
  have hdecided (used : Int) : (!decide (u.quota ≤ used)) = decide (used < gib * 2 ^ 30) := by
    rw [h.quota, ← decide_not, decide_eq_decide]
    omega
  rw [eligible?, h.banned, if_neg Bool.false_ne_true, usedUp?, if_neg hlimited, Option.map_map, h.unexpired]
  congr 1
  funext used
  rw [Function.comp_apply, Bool.not_false, Bool.and_true, hdecided]

theorem used?_eq_some (hsum : u.upload + u.download < 2 ^ 63) : u.used? = some (u.upload + u.download) := by
  have hsize : Nat.pow 2 63 = 9223372036854775808 := rfl
  have hupload := h.upload
  have hdownload := h.download
  refine Word64.ofInt?_eq_some ?_
  unfold SixtyFourBits
  omega

theorem stops (hsum : 2 ^ 63 ≤ u.upload + u.download) : u.used? = none ∧ u.eligible? now = none := by
  have hused := used?_eq_none hsum
  exact ⟨hused, by rw [h.eligible?_eq, hused, Option.map_none]⟩

theorem exact_iff : u.Exact gib now ↔ u.upload + u.download < 2 ^ 63 := by
  constructor
  · intro hexact
    by_contra hsum
    have hnone : u.used? = none := used?_eq_none (by omega)
    cases hnone.symm.trans hexact.used
  · intro hsum
    have hused := h.used?_eq_some hsum
    exact ⟨hused, by rw [h.eligible?_eq, hused, Option.map_some]⟩

end Metered

end User

/-! ## Users that are added -/

namespace Fleet

/-- Of a user nothing is changed by any calls but what is used. -/
theorem run_row {s : Fleet} (hbalanced : s.ledger.Balanced) (hkeyed : s.ledger.Keyed) {id : Int} {row : UserRow}
    (hrow : s.ledger.users.get? id = some row) (calls : List (Instant × FleetCall)) :
    ∃ x, (s.run calls).ledger.users.get? id = some (row.credit x) := by
  have hrun := run_ledger (P := fun l => (l.Balanced ∧ l.Keyed) ∧ ∃ x, l.users.get? id = some (row.credit x))
    (fun l row' hunused hnew ⟨⟨hb, hk⟩, x, hx⟩ =>
      ⟨⟨hb.insertUser hunused, hk.insertUser hb.users hnew⟩, x, hb.users.get?_insert_of_some hx _⟩)
    (fun l node day t now ⟨⟨hb, hk⟩, x, hx⟩ => ⟨⟨hb.stage node day t now, hk.stage node day t now⟩, x, hx⟩)
    (fun l b ⟨⟨hb, hk⟩, x, hx⟩ => by
      refine ⟨⟨hb.commit b, hk.commit b⟩, ?_⟩
      cases hstaged : l.stagedRows.has b.id with
      | false =>
        rw [Ledger.commit_of_unstaged hstaged]
        exact ⟨x, hx⟩
      | true =>
        have husers := (Ledger.commit_booked hk hstaged).1.users
        rw [Ledger.get?_of_credited husers, hx, Option.map_some, UserRow.credit_credit]
        exact ⟨_, rfl⟩)
    ⟨⟨hbalanced, hkeyed⟩, 0, by rw [UserRow.credit_zero]; exact hrow⟩ calls
  exact hrun.2

/-! ### The command that adds a user -/

section AddUser

variable {s s' : Fleet} {c : CommandContext} {group : Option Int} {gib : Int} {days : Option Int}

theorem carryOut_addUser_of_none (h : quotaOfGib? gib = none) :
    s.carryOut c (.addUser group gib days) = (.ok (overflown "multiply" ""), s) := by
  unfold carryOut
  dsimp only
  rw [h]

/-- With a quota that can be computed, either the last day of the user is beyond the calendar, or the user is
added. -/
theorem carryOut_addUser_of_some (s : Fleet) (c : CommandContext) (group days : Option Int) {quota : Int}
    (h : quotaOfGib? gib = some quota) :
    ((∃ d ∈ days, c.now.shifted? d = none) ∧ s.carryOut c (.addUser group gib days) = (.ok beyondCalendar, s)) ∨
    (∀ d ∈ days, c.now.shifted? d ≠ none) ∧ ∃ expiresAt,
      s.carryOut c (.addUser group gib days) = s.enrollUser c { group, quota, expiresAt } := by
  unfold carryOut
  dsimp only
  rw [h]
  cases days with
  | none => exact .inr ⟨by simp, none, rfl⟩
  | some d =>
    rw [Option.map_some]
    cases hshifted : c.now.shifted? d with
    | none => exact .inl ⟨⟨d, rfl, hshifted⟩, rfl⟩
    | some t => exact .inr ⟨by simp [hshifted], some t, rfl⟩

/-- A user who is added is a new row, with the quota that is asked for and no ban. -/
theorem exists_insert_of_enrollUser {d : UserDraft} {out : CommandOutput}
    (h : s.enrollUser c d = (.ok out, s')) :
    ∃ row : UserRow, row.total = 0 ∧ row.uuid ∉ s.ledger.users.rows.map (·.2.uuid) ∧ row.quota = d.quota ∧
      row.banned = false ∧ s'.ledger = { s.ledger with users := s.ledger.users.insert row } := by
  unfold enrollUser at h
  cases hadd : s.ledger.users.add c.uuid c.token d c.now with
  | error e =>
    rw [hadd] at h
    cases h
  | ok added =>
    obtain ⟨row, hunused, hnew, hrows, hquota, hbanned⟩ := UserTable.exists_insert_of_add hadd
    rw [hadd] at h
    cases h
    exact ⟨row, hunused, hnew, hquota, hbanned, by rw [← hrows]⟩

/-- No user has the uuid or the token of the command. -/
def Fresh (s : Fleet) (c : CommandContext) : Prop :=
  ∀ e ∈ s.ledger.users.rows, e.2.uuid ≠ c.uuid ∧ e.2.tokenHash ≠ tokenHash c.token

theorem exists_enrollUser (h : s.Fresh c) (d : UserDraft) :
    ∃ out, (s.enrollUser c d).1 = .ok out ∧ out.code = 0 := by
  have huuid : (s.ledger.users.rows.any fun e => e.2.uuid == c.uuid) = false :=
    List.any_eq_false.2 fun e he => by simpa using (h e he).1
  have htoken : (s.ledger.users.rows.any fun e => e.2.tokenHash == tokenHash c.token) = false :=
    List.any_eq_false.2 fun e he => by simpa using (h e he).2
  unfold enrollUser UserTable.add
  simp only [huuid, htoken, Bool.false_eq_true, if_false]
  exact ⟨_, rfl, rfl⟩

end AddUser

/-- **When quotas are exact.** The command that adds a user with a quota of some GiB stops at `2 ^ 33` GiB or
more, and nothing is changed. For a quota below it adds the user, if the last day is within the calendar
and uuid and token are new. The user then has exactly that quota in bytes. Whatever is counted later, as
long as the counters fit 64 bits: use and decision are those of exact arithmetic if the use fits 64 bits
too, and otherwise there are none, since the program stops over them. -/
theorem users_add_exact_iff (settings : Settings) (before : List (Instant × FleetCall)) (c : CommandContext)
    (group : Option Int) (gib : Int) (hgib : 0 < gib) (days : Option Int) :
    let s := (empty settings).run before
    let r := s.carryOut c (.addUser group gib days)
    (2 ^ 33 ≤ gib → r = (.ok (overflown "multiply" ""), s)) ∧
    (gib < 2 ^ 33 → (∀ d ∈ days, c.now.shifted? d ≠ none) → s.Fresh c → ∃ out, r.1 = .ok out ∧ out.code = 0) ∧
    ∀ out, r.1 = .ok out → out.code = 0 → ∀ (after : List (Instant × FleetCall)) (now : Instant), ∃ u : User,
      (r.2.run after).ledger.users.find? s.ledger.users.nextId now = some u ∧ u.quota = gib * 2 ^ 30 ∧
      (u.expiresAt.any (· ≤ now) = false → 0 ≤ u.upload ∧ u.upload < 2 ^ 63 → 0 ≤ u.download ∧ u.download < 2 ^ 63 →
        (u.Exact gib now ↔ u.upload + u.download < 2 ^ 63) ∧
        (2 ^ 63 ≤ u.upload + u.download → u.used? = none ∧ u.eligible? now = none)) := by
  intro s r
  refine ⟨fun h => carryOut_addUser_of_none (quotaOfGib?_eq_none h), fun h hdays hfresh => ?_, ?_⟩
  · obtain ⟨⟨d, hd, hbeyond⟩, -⟩ | ⟨-, expiresAt, henrolled⟩ :=
      carryOut_addUser_of_some s c group days (quotaOfGib?_eq_some hgib h)
    · exact absurd hbeyond (hdays d hd)
    · show ∃ out, (s.carryOut c (.addUser group gib days)).1 = .ok out ∧ out.code = 0
      rw [henrolled]
      exact exists_enrollUser hfresh _
  · intro out hout hcode after now
    have hsmall : gib < 2 ^ 33 := by
      by_contra hlarge
      have hstop : r = (.ok (overflown "multiply" ""), s) :=
        carryOut_addUser_of_none (quotaOfGib?_eq_none (by omega))
      rw [hstop] at hout
      cases hout
      cases hcode
    obtain ⟨-, hbeyond⟩ | ⟨-, expiresAt, henrolled⟩ :=
      carryOut_addUser_of_some s c group days (quotaOfGib?_eq_some hgib hsmall)
    · have hr : r = (.ok beyondCalendar, s) := hbeyond
      rw [hr] at hout
      cases hout
      cases hcode
    obtain ⟨hbalanced, hkeyed⟩ := run_ledger_sound settings before
    obtain ⟨row, hunused, hnew, hquota, hbanned, hledger⟩ :=
      exists_insert_of_enrollUser (henrolled.symm.trans (Prod.ext hout rfl : r = (.ok out, r.2)))
    have hrow : r.2.ledger.users.get? s.ledger.users.nextId = some row := by
      rw [hledger]
      exact hbalanced.users.get?_insert_self row
    obtain ⟨x, hx⟩ := run_row (hledger ▸ hbalanced.insertUser hunused)
      (hledger ▸ hkeyed.insertUser hbalanced.users hnew) hrow after
    refine ⟨(row.credit x).user now _, by rw [UserTable.find?, hx, Option.map_some], hquota, ?_⟩
    intro hunexpired hupload hdownload
    have hmetered : ((row.credit x).user now s.ledger.users.nextId).Metered gib now :=
      ⟨hgib, hquota, hbanned, hunexpired, hupload, hdownload⟩
    exact ⟨hmetered.exact_iff, hmetered.stops⟩

/-- A command whose user has the uuid `u`. -/
def sampleContext : CommandContext where
  now := ⟨0⟩
  refused := fun _ => false
  transport := fun _ => none
  uuid := "u"
  token := "t"
  key := fun _ => ""

/-- What a command leaves that adds a user of so many GiB, as the first. -/
def addFirst (gib : Int) : Except CommandFailure CommandOutput × Fleet :=
  (empty {}).carryOut sampleContext (.addUser none gib none)

/-- The user's traffic is staged, and committed. -/
def sampleUse (upload download : Int) : List (Instant × FleetCall) :=
  let t : Traffic := ⟨"vless", .one, upload, download, [⟨"u", upload, download⟩]⟩
  [.stage 1 ⟨2024, 2, 29⟩ t, .commit ⟨1, 1, ⟨2024, 2, 29⟩, t⟩].map (⟨0⟩, ·)

theorem users_add_exact_iff_usedUp :
    (∃ out, (addFirst 1).1 = .ok out ∧ out.code = 0) ∧
    ∃ u : User, ((addFirst 1).2.run (sampleUse (2 ^ 29) (2 ^ 29))).ledger.users.find? 1 ⟨0⟩ = some u ∧
      u.upload + u.download = 2 ^ 30 ∧ u.Exact 1 ⟨0⟩ := by
  obtain ⟨-, hadds, hexact⟩ := users_add_exact_iff {} [] sampleContext none 1 (by decide) none
  have hadded : ∃ out, (addFirst 1).1 = .ok out ∧ out.code = 0 :=
    hadds (by decide) (by simp) (by intro e he; cases he)
  have hcounted : (((addFirst 1).2.run (sampleUse (2 ^ 29) (2 ^ 29))).ledger.users.find? 1 ⟨0⟩).map
      (fun u => (u.upload, u.download, u.expiresAt)) = some (2 ^ 29, 2 ^ 29, none) := by decide +kernel
  obtain ⟨out, hout, hcode⟩ := hadded
  obtain ⟨u, hfind, -, hdecided⟩ := hexact out hout hcode (sampleUse (2 ^ 29) (2 ^ 29)) ⟨0⟩
  have hvalues : (u.upload, u.download, u.expiresAt) = ((2 ^ 29 : Int), (2 ^ 29 : Int), (none : Option Instant)) := by
    have hsome := congrArg (Option.map fun u : User => (u.upload, u.download, u.expiresAt)) hfind
    exact Option.some.inj (hsome.symm.trans hcounted)
  obtain ⟨hupload, hdownload, hexpires⟩ : u.upload = 2 ^ 29 ∧ u.download = 2 ^ 29 ∧ u.expiresAt = none := by
    simpa using hvalues
  refine ⟨⟨out, hout, hcode⟩, u, hfind, by rw [hupload, hdownload]; rfl, ?_⟩
  refine (hdecided ?_ ?_ ?_).1.2 ?_
  · rw [hexpires]
    rfl
  · rw [hupload]
    decide
  · rw [hdownload]
    decide
  · rw [hupload, hdownload]
    decide

theorem users_add_inexact :
    (((addFirst 1).2.run (sampleUse (2 ^ 62) (2 ^ 62))).ledger.users.find? 1 ⟨0⟩).map
      (fun u => (u.quota, u.upload, u.download, u.banned, u.expiresAt)) = some (2 ^ 30, 2 ^ 62, 2 ^ 62, false, none) ∧
    (((addFirst 1).2.run (sampleUse (2 ^ 62) (2 ^ 62))).ledger.users.find? 1 ⟨0⟩).map
      (fun u => (u.used?, u.eligible? ⟨0⟩)) = some (none, none) ∧
    (addFirst (2 ^ 33)).1.toOption = some (overflown "multiply" "") := by
  decide +kernel

end Fleet

end ProxyFleet

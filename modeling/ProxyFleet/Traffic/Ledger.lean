import ProxyFleet.Json.Printer
import ProxyFleet.Traffic.Basic
import ProxyFleet.Users.Basic

/-!
# The books of traffic

Traffic is staged before it counts, and counts once: committing a batch takes it from the staged
ones and adds it to the users, to their days, and to the node's day, all or nothing.

* `Ledger.stage`, `Ledger.staged`, `Ledger.commit` : from counters to totals;
* `Ledger.userDays`, `Ledger.nodeDay` : totals by day.
-/

namespace ProxyFleet

set_option autoImplicit false

/-- A row of staged traffic, column by column. -/
structure StagedRow where
  node : Int
  day : String
  traffic : JsonColumn
  createdAt : String

/-- A row of a user's traffic of one day at one rate, column by column. -/
structure UserDayRow where
  user : Int
  rate : Binary64
  day : String
  upload : Int
  download : Int

/-- A row of a node's traffic of one day, column by column. -/
structure NodeDayRow where
  node : Int
  protocol : String
  day : String
  upload : Int
  download : Int

/-- The users, the traffic that is staged, and the totals by day. -/
structure Ledger where
  users : UserTable := {}
  stagedRows : Table StagedRow := {}
  userDayRows : Table UserDayRow := {}
  nodeDayRows : Table NodeDayRow := {}

/-- The batch that a row describes. -/
def StagedRow.batch (id : Int) (r : StagedRow) : Except StoreError TrafficBatch := do
  let day ← (Day.read r.day).mapError fun e => .corrupt (.day r.day e)
  let traffic ← r.traffic.read Traffic.decoder
  return ⟨id, r.node, day, traffic⟩

/-- The day that a row describes. -/
def UserDayRow.total (r : UserDayRow) : Except StoreError UserDay := do
  let day ← (Day.read r.day).mapError fun e => .corrupt (.day r.day e)
  return ⟨r.user, r.rate, day, r.upload, r.download⟩

namespace Ledger

/-! ## Staging -/

/-- Keep the text of traffic until it is committed. The answer is the id of the batch. -/
def stage (l : Ledger) (node : Int) (day : Day) (t : Traffic) (now : Instant) : Int × Ledger :=
  (l.stagedRows.nextId,
   { l with stagedRows := l.stagedRows.insert ⟨node, day.text, .ofText t.toJson.compact, now.stamp⟩ })

/-- The batches of a node that are staged, oldest first. -/
def staged (l : Ledger) (node : Int) : Except StoreError (List TrafficBatch) :=
  (l.stagedRows.select (·.node == node)).mapM fun (id, r) => r.batch id

/-! ## Totals -/

/-- Two rates that count as one: zero has two. -/
def sameRate (x y : Binary64) : Bool := x.orderKey == y.orderKey

/-- Add to a user's day at a rate. A rate of zero is kept without its sign. -/
def addUserDay (t : Table UserDayRow) (user : Int) (rate : Binary64) (day : Day) (upload download : Int) :
    Table UserDayRow :=
  let isIt (r : UserDayRow) : Bool := r.user == user && sameRate r.rate rate && r.day == day.text
  if t.rows.any (isIt ·.2) then
    t.modify (fun _ r => isIt r) fun r =>
      { r with upload := r.upload + upload, download := r.download + download }
  else t.insert ⟨user, if rate.isZero then .zero else rate, day.text, upload, download⟩

/-- Add to a node's day; the protocol stays the one that was first recorded. -/
def addNodeDay (t : Table NodeDayRow) (node : Int) (protocol : String) (day : Day) (upload download : Int) :
    Table NodeDayRow :=
  let isIt (r : NodeDayRow) : Bool := r.node == node && r.day == day.text
  if t.rows.any (isIt ·.2) then
    t.modify (fun _ r => isIt r) fun r =>
      { r with upload := r.upload + upload, download := r.download + download }
  else t.insert ⟨node, protocol, day.text, upload, download⟩

/-- The id of the user with a uuid. -/
def userId? (l : Ledger) (uuid : String) : Option Int :=
  ((l.users.select (·.uuid == uuid)).head?).map (·.1)

/-- Add what a user contributed; nothing counts for nothing, and unknown users are passed over. -/
def addEntry (rate : Binary64) (day : Day) (s : CommitSummary × Ledger) (u : UserTraffic) :
    CommitSummary × Ledger :=
  let (summary, l) := s
  if u.upload = 0 ∧ u.download = 0 then (summary, l)
  else
    match l.userId? u.uuid with
    | none => ({ summary with usersSkipped := summary.usersSkipped + 1 }, l)
    | some id =>
      ({ summary with usersUpdated := summary.usersUpdated + 1 },
       { l with
         users := l.users.modifyId id fun r =>
           { r with upload := r.upload + u.upload, download := r.download + u.download }
         userDayRows := addUserDay l.userDayRows id rate day u.upload u.download })

/-- Add what was counted to the totals. -/
def apply (l : Ledger) (node : Int) (day : Day) (t : Traffic) : CommitSummary × Ledger :=
  let (summary, l) := t.users.foldl (addEntry t.rate day) ({}, l)
  let nodeDayRows :=
    if 0 < t.upload ∨ 0 < t.download then
      addNodeDay l.nodeDayRows node t.protocol day t.upload t.download
    else l.nodeDayRows
  ({ summary with upload := t.upload, download := t.download }, { l with nodeDayRows })

/-- Add a batch to the totals, unless it is no longer staged. -/
def commit (l : Ledger) (b : TrafficBatch) : CommitSummary × Ledger :=
  if l.stagedRows.has b.id then
    apply { l with stagedRows := l.stagedRows.eraseId b.id } b.node b.day b.traffic
  else ({}, l)

/-- Add batches to the totals one after another. -/
def commitAll (l : Ledger) (bs : List TrafficBatch) : CommitSummary × Ledger :=
  bs.foldl (fun (summary, l) b =>
    let (s, l) := l.commit b
    (summary.add s, l)) ({}, l)

/-- The days of a user, newest first, then by rate. -/
def userDays (l : Ledger) (user : Int) : Except StoreError (List UserDay) :=
  let rows := (l.userDayRows.select (·.user == user)).map (·.2)
  let byRate := rows.mergeSort fun a b => a.rate.orderKey ≤ b.rate.orderKey
  (byRate.mergeSort fun a b => b.day ≤ a.day).mapM (·.total)

/-- Upload and download of a node on a day. -/
def nodeDay (l : Ledger) (node : Int) (day : Day) : Int × Int :=
  match ((l.nodeDayRows.select fun r => r.node == node && r.day == day.text).head?).map (·.2) with
  | some r => (r.upload, r.download)
  | none => (0, 0)

end Ledger

end ProxyFleet

import ProxyFleet.Json.Value
import ProxyFleet.Number.Word64
import ProxyFleet.Store.Error
import ProxyFleet.Store.Table
import ProxyFleet.Text.Base64
import ProxyFleet.Text.Sha256

/-!
# Subscribers

A `User` may use the nodes of a group until a quota is used up or a moment has come.

* `User.used?`, `User.eligible?` : what was used, and whether a user may connect; there is no answer where
  the sum of what was sent and received is beyond 64 bits, since a program stops that has to compute it;
* `User.isEligible`, `User.usage` : whom the answer admits, and what clients are told;
* `UserTable.add`, `UserTable.find?`, `UserTable.ofToken?`, `UserTable.inGroups` : the table. Of a
  subscription token only the hash is kept.
-/

namespace ProxyFleet

set_option autoImplicit false

/-- A subscriber. -/
structure User where
  id : Int
  uuid : String
  group : Option Int := none
  /-- Bytes that may be used; zero for any number. -/
  quota : Int := 0
  upload : Int := 0
  download : Int := 0
  banned : Bool := false
  expiresAt : Option Instant := none
  speedLimit : Option Int := none
  createdAt : Instant
  deriving DecidableEq

namespace User

/-- The bytes that were used, unless their number is beyond 64 bits. -/
def used? (u : User) : Option Int := Word64.ofInt? (u.upload + u.download)

/-- Whether the quota is used up. What was used is looked at only if there is a quota. -/
def usedUp? (u : User) : Option Bool :=
  if u.quota = 0 then some false else u.used?.map fun used => decide (u.quota ≤ used)

/-- Whether a user may connect at a moment: the ban is looked at first, and the quota before the last day.
There is no answer where the program stops over what was used. -/
def eligible? (u : User) (now : Instant) : Option Bool :=
  if u.banned then some false
  else u.usedUp?.map fun usedUp => !usedUp && !u.expiresAt.any (· ≤ now)

/-- Whether a user is found to be one who may connect. It is so of nobody over whom the program stops. -/
def isEligible (u : User) (now : Instant) : Bool := u.eligible? now == some true

/-- What clients are told about the use of a subscription. -/
def usage (u : User) : String :=
  let expire := (u.expiresAt.map (·.seconds)).getD 0
  s!"upload={u.upload}; download={u.download}; total={u.quota}; expire={expire}"

/-- The document of a user. -/
def toJson (u : User) : Json :=
  .obj [("id", .int u.id), ("uuid", .str u.uuid), ("group_id", Json.orNull .int u.group),
    ("transfer_enable", .int u.quota), ("u", .int u.upload), ("d", .int u.download),
    ("banned", .bool u.banned), ("expired_at", Json.orNull (fun t => .str t.text) u.expiresAt),
    ("speed_limit", Json.orNull .int u.speedLimit), ("created_at", .str u.createdAt.text)]

end User

/-- A subscriber that is to be. -/
structure UserDraft where
  group : Option Int := none
  quota : Int := 0
  expiresAt : Option Instant := none
  speedLimit : Option Int := none

/-- A row of the table of users, column by column. -/
structure UserRow where
  uuid : String
  tokenHash : String
  group : Option Int
  quota : Int
  upload : Int := 0
  download : Int := 0
  banned : Bool := false
  expiresAt : Option String
  speedLimit : Option Int
  createdAt : String

/-- The user that a row describes. -/
def UserRow.user (now : Instant) (id : Int) (r : UserRow) : User where
  id := id
  uuid := r.uuid
  group := r.group
  quota := r.quota
  upload := r.upload
  download := r.download
  banned := r.banned
  expiresAt := timeColumn? r.expiresAt
  speedLimit := r.speedLimit
  createdAt := timeColumn now r.createdAt

/-- What is kept of a subscription token. -/
def tokenHash (token : String) : String := Sha256.hexDigest (Text.utf8 token)

/-- The table of users. -/
abbrev UserTable := Table UserRow

namespace UserTable

/-- Add a user with a uuid and a token, neither of which another user may have. -/
def add (t : UserTable) (uuid token : String) (d : UserDraft) (now : Instant) :
    Except StoreError (User × UserTable) :=
  let hash := tokenHash token
  if t.rows.any (·.2.uuid == uuid) then .error (.database (.notUnique "users.uuid"))
  else if t.rows.any (·.2.tokenHash == hash) then .error (.database (.notUnique "users.token_hash"))
  else
    .ok (
      { id := t.nextId, uuid, group := d.group, quota := d.quota, expiresAt := d.expiresAt
        speedLimit := d.speedLimit, createdAt := now },
      t.insert
        { uuid, tokenHash := hash, group := d.group, quota := d.quota
          expiresAt := d.expiresAt.map (·.stamp), speedLimit := d.speedLimit, createdAt := now.stamp })

/-- The user of an id. -/
def find? (t : UserTable) (id : Int) (now : Instant) : Option User := (t.get? id).map (·.user now id)

/-- The users whose rows meet a condition. -/
def ofRows (t : UserTable) (p : UserRow → Bool) (now : Instant) : List User :=
  (t.select p).map fun (id, r) => r.user now id

/-- The user with a subscription token. -/
def ofToken? (t : UserTable) (token : String) (now : Instant) : Option User :=
  let hash := tokenHash token
  (ofRows t (·.tokenHash == hash) now).head?

/-- Every user. -/
def list (t : UserTable) (now : Instant) : List User := ofRows t (fun _ => true) now

/-- The users of any of the groups. -/
def inGroups (t : UserTable) (groups : List Int) (now : Instant) : List User :=
  ofRows t (fun r => r.group.any fun g => groups.contains g) now

/-- Ban a user, or lift a ban. -/
def setBanned (t : UserTable) (id : Int) (banned : Bool) : UserTable :=
  t.modifyId id fun r => { r with banned }

end UserTable

end ProxyFleet

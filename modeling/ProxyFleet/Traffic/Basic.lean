import ProxyFleet.Json.Decode
import ProxyFleet.Number.Word64
import ProxyFleet.Time.Day

/-!
# Traffic

A `Traffic` is what was counted on a node in one go, already multiplied by the node's rate: totals
of the node, and what each user contributed. A `CommitSummary` says what became of it.
-/

namespace ProxyFleet

set_option autoImplicit false

/-- What a user contributed. -/
structure UserTraffic where
  uuid : String
  upload : Int
  download : Int
  deriving DecidableEq

/-- What was counted on a node in one go. -/
structure Traffic where
  protocol : String
  rate : Binary64
  upload : Int
  download : Int
  users : List UserTraffic
  deriving DecidableEq

/-- The document of a user's contribution. -/
def UserTraffic.toJson (u : UserTraffic) : Json :=
  .obj [("uuid", .str u.uuid), ("upload", .int u.upload), ("download", .int u.download)]

/-- The document of what was counted. -/
def Traffic.toJson (t : Traffic) : Json :=
  .obj [("protocol", .str t.protocol), ("rate", .float t.rate), ("upload", .int t.upload),
    ("download", .int t.download), ("users", .arr (t.users.map UserTraffic.toJson))]

open Decoder in
/-- Reads a user's contribution. -/
def UserTraffic.decoder : Decoder UserTraffic :=
  record "UserTraffic" (UserTraffic.mk <$> Fields.required "uuid" text
    <*> Fields.required "upload" i64 <*> Fields.required "download" i64)

open Decoder in
/-- Reads what was counted. -/
def Traffic.decoder : Decoder Traffic :=
  record "TrafficPayload" (Traffic.mk <$> Fields.required "protocol" text
    <*> Fields.required "rate" f64 <*> Fields.required "upload" i64
    <*> Fields.required "download" i64 <*> Fields.required "users" (list UserTraffic.decoder))

/-- What was counted on a node and waits to be added to the totals. -/
structure TrafficBatch where
  id : Int
  node : Int
  day : Day
  traffic : Traffic
  deriving DecidableEq

/-- What became of traffic that was added to the totals. -/
structure CommitSummary where
  usersUpdated : Nat := 0
  usersSkipped : Nat := 0
  upload : Int := 0
  download : Int := 0
  deriving DecidableEq

namespace CommitSummary

/-- Two summaries in one. -/
def add (a b : CommitSummary) : CommitSummary where
  usersUpdated := a.usersUpdated + b.usersUpdated
  usersSkipped := a.usersSkipped + b.usersSkipped
  upload := Word64.wrap (a.upload + b.upload)
  download := Word64.wrap (a.download + b.download)

/-- The document of a summary. -/
def toJson (s : CommitSummary) : Json :=
  .obj [("users_updated", .nat s.usersUpdated), ("users_skipped", .nat s.usersSkipped),
    ("upload", .int s.upload), ("download", .int s.download)]

end CommitSummary

/-- A user's traffic of one day at one rate. -/
structure UserDay where
  user : Int
  rate : Binary64
  day : Day
  upload : Int
  download : Int
  deriving DecidableEq

/-- The document of a user's traffic of one day. -/
def UserDay.toJson (d : UserDay) : Json :=
  .obj [("user_id", .int d.user), ("server_rate", .float d.rate), ("record_at", .str d.day.text),
    ("u", .int d.upload), ("d", .int d.download)]

end ProxyFleet

import ProxyFleet.Fleet.Basic

/-!
# The fleet as a document

What is stored of a fleet outlives the program as a document: the tables, each with the id that its
next row gets. The ports that are held are not written, since starting the services restores them
from their table; nor is anything that only an agent knows.

* `Fleet.archive` : the document of what is stored;
* `Fleet.ofArchive` : the fleet that a document describes.
-/

namespace ProxyFleet

set_option autoImplicit false

namespace Archive

/-! ## Tables -/

/-- A column that holds a document, or a text that is none: as many items as there are documents. -/
def column (c : JsonColumn) : Json := .arr c.toList

/-- Reads a column that holds a document. -/
def columnDecoder : Decoder JsonColumn
  | .arr [] => .ok none
  | .arr [v] => .ok (some v)
  | v => .error (.wrongType v "a column")

/-- A table, given the document of a row. -/
def table {ρ : Type} (row : ρ → Json) (t : Table ρ) : Json :=
  .obj [("next_id", .int t.nextId), ("rows", .arr (t.rows.map fun (id, r) => .arr [.int id, row r]))]

/-- Reads a row with its id. -/
def rowDecoder {ρ : Type} (row : Decoder ρ) : Decoder (Int × ρ)
  | .arr [id, r] => do return (← Decoder.i64 id, ← row r)
  | v => .error (.wrongType v "a row with its id")

open Decoder in
/-- Reads a table, given how a row is read. -/
def tableDecoder {ρ : Type} (row : Decoder ρ) : Decoder (Table ρ) :=
  record "Table" ((fun nextId rows => { nextId, rows }) <$> Fields.required "next_id" i64
    <*> Fields.required "rows" (list (rowDecoder row)))

/-! ## Rows -/

/-- A text that may be missing. -/
def text? : Option String → Json := Json.orNull .str

/-- The document of a port's row. -/
def portRow (r : PortRow) : Json :=
  .obj [("port", .int r.port), ("owner", .int r.owner), ("purpose", .str r.purpose),
    ("status", .str r.status), ("allocated_at", .str r.allocatedAt), ("released_at", text? r.releasedAt)]

open Decoder in
/-- Reads a port's row. -/
def portRowDecoder : Decoder PortRow :=
  record "PortRow" (PortRow.mk <$> Fields.required "port" i64 <*> Fields.required "owner" i64
    <*> Fields.required "purpose" text <*> Fields.required "status" text
    <*> Fields.required "allocated_at" text <*> Fields.optional "released_at" text)

/-- The document of a node's row. -/
def nodeRow (r : NodeRow) : Json :=
  .obj [("name", .str r.name), ("protocol", .str r.protocol), ("host", .str r.host), ("port", .int r.port),
    ("params", column r.params), ("rate", .float r.rate), ("groups", column r.groups),
    ("agent_url", text? r.agentUrl), ("agent_token", text? r.agentToken),
    ("created_at", .str r.createdAt), ("updated_at", .str r.updatedAt)]

open Decoder in
/-- Reads a node's row. -/
def nodeRowDecoder : Decoder NodeRow :=
  record "NodeRow" (NodeRow.mk <$> Fields.required "name" text <*> Fields.required "protocol" text
    <*> Fields.required "host" text <*> Fields.required "port" i64
    <*> Fields.required "params" columnDecoder <*> Fields.required "rate" f64
    <*> Fields.required "groups" columnDecoder <*> Fields.optional "agent_url" text
    <*> Fields.optional "agent_token" text <*> Fields.required "created_at" text
    <*> Fields.required "updated_at" text)

/-- The document of a row of a node's history. -/
def historyRow (r : HistoryRow) : Json :=
  .obj [("node", .int r.node), ("action", .str r.action), ("old_config", text? r.oldConfig),
    ("new_config", text? r.newConfig), ("success", .bool r.success), ("error", text? r.error),
    ("created_at", .str r.createdAt)]

open Decoder in
/-- Reads a row of a node's history. -/
def historyRowDecoder : Decoder HistoryRow :=
  record "HistoryRow" (HistoryRow.mk <$> Fields.required "node" i64 <*> Fields.required "action" text
    <*> Fields.optional "old_config" text <*> Fields.optional "new_config" text
    <*> Fields.required "success" bool <*> Fields.optional "error" text
    <*> Fields.required "created_at" text)

/-- The document of a user's row. -/
def userRow (r : UserRow) : Json :=
  .obj [("uuid", .str r.uuid), ("token_hash", .str r.tokenHash), ("group", Json.orNull .int r.group),
    ("quota", .int r.quota), ("upload", .int r.upload), ("download", .int r.download),
    ("banned", .bool r.banned), ("expires_at", text? r.expiresAt),
    ("speed_limit", Json.orNull .int r.speedLimit), ("created_at", .str r.createdAt)]

open Decoder in
/-- Reads a user's row. -/
def userRowDecoder : Decoder UserRow :=
  record "UserRow" (UserRow.mk <$> Fields.required "uuid" text <*> Fields.required "token_hash" text
    <*> Fields.optional "group" i64 <*> Fields.required "quota" i64 <*> Fields.required "upload" i64
    <*> Fields.required "download" i64 <*> Fields.required "banned" bool
    <*> Fields.optional "expires_at" text <*> Fields.optional "speed_limit" i64
    <*> Fields.required "created_at" text)

/-- The document of a row of staged traffic. -/
def stagedRow (r : StagedRow) : Json :=
  .obj [("node", .int r.node), ("day", .str r.day), ("traffic", column r.traffic),
    ("created_at", .str r.createdAt)]

open Decoder in
/-- Reads a row of staged traffic. -/
def stagedRowDecoder : Decoder StagedRow :=
  record "StagedRow" (StagedRow.mk <$> Fields.required "node" i64 <*> Fields.required "day" text
    <*> Fields.required "traffic" columnDecoder <*> Fields.required "created_at" text)

/-- The document of a user's day. -/
def userDayRow (r : UserDayRow) : Json :=
  .obj [("user", .int r.user), ("rate", .float r.rate), ("day", .str r.day), ("upload", .int r.upload),
    ("download", .int r.download)]

open Decoder in
/-- Reads a user's day. -/
def userDayRowDecoder : Decoder UserDayRow :=
  record "UserDayRow" (UserDayRow.mk <$> Fields.required "user" i64 <*> Fields.required "rate" f64
    <*> Fields.required "day" text <*> Fields.required "upload" i64 <*> Fields.required "download" i64)

/-- The document of a node's day. -/
def nodeDayRow (r : NodeDayRow) : Json :=
  .obj [("node", .int r.node), ("protocol", .str r.protocol), ("day", .str r.day),
    ("upload", .int r.upload), ("download", .int r.download)]

open Decoder in
/-- Reads a node's day. -/
def nodeDayRowDecoder : Decoder NodeDayRow :=
  record "NodeDayRow" (NodeDayRow.mk <$> Fields.required "node" i64 <*> Fields.required "protocol" text
    <*> Fields.required "day" text <*> Fields.required "upload" i64 <*> Fields.required "download" i64)

/-! ## Every table -/

/-- The tables of a fleet. -/
structure Tables where
  ports : PortTable := {}
  nodes : NodeTable := {}
  history : HistoryTable := {}
  users : UserTable := {}
  staged : Table StagedRow := {}
  userDays : Table UserDayRow := {}
  nodeDays : Table NodeDayRow := {}

/-- The document of tables. -/
def tables (t : Tables) : Json :=
  .obj [("ports", table portRow t.ports), ("nodes", table nodeRow t.nodes),
    ("history", table historyRow t.history), ("users", table userRow t.users),
    ("staged", table stagedRow t.staged), ("user_days", table userDayRow t.userDays),
    ("node_days", table nodeDayRow t.nodeDays)]

open Decoder in
/-- Reads tables. -/
def tablesDecoder : Decoder Tables :=
  record "Tables" (Tables.mk <$> Fields.required "ports" (tableDecoder portRowDecoder)
    <*> Fields.required "nodes" (tableDecoder nodeRowDecoder)
    <*> Fields.required "history" (tableDecoder historyRowDecoder)
    <*> Fields.required "users" (tableDecoder userRowDecoder)
    <*> Fields.required "staged" (tableDecoder stagedRowDecoder)
    <*> Fields.required "user_days" (tableDecoder userDayRowDecoder)
    <*> Fields.required "node_days" (tableDecoder nodeDayRowDecoder))

end Archive

namespace Fleet

/-- The tables of a fleet. -/
def tables (s : Fleet) : Archive.Tables where
  ports := s.roster.ports.table
  nodes := s.roster.nodes
  history := s.roster.history
  users := s.ledger.users
  staged := s.ledger.stagedRows
  userDays := s.ledger.userDayRows
  nodeDays := s.ledger.nodeDayRows

/-- A fleet with tables; no port is held before the services start. -/
def ofTables (settings : Settings) (t : Archive.Tables) : Fleet where
  settings := settings
  roster := {
    settings := settings.engine, ports := { range := settings.ports, table := t.ports }
    nodes := t.nodes, history := t.history }
  ledger := { users := t.users, stagedRows := t.staged, userDayRows := t.userDays, nodeDayRows := t.nodeDays }

/-- The document of what is stored. -/
def archive (s : Fleet) : Json := Archive.tables s.tables

/-- The fleet that a document describes. -/
def ofArchive (settings : Settings) (document : Json) : Except DecodeError Fleet :=
  (Archive.tablesDecoder document).map (ofTables settings)

end Fleet

end ProxyFleet

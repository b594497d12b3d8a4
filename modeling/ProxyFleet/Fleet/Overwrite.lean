import ProxyFleet.Fleet.Basic

/-!
# Rows changed by hand

`Fleet.overwrite` sets one column of one row to a value, past every check but those of the table
itself: a column that has to hold something cannot be emptied, and what has to be unique stays so.
-/

namespace ProxyFleet

set_option autoImplicit false

/-- A value as a column takes it. -/
structure ColumnValue where
  column : String
  value : Json

namespace ColumnValue

/-- The text of a value in a column of texts. -/
def text? (v : ColumnValue) : Option String :=
  match v.value with
  | .null => none
  | .str s => some s
  | .num (.int i) => some (toString i)
  | other => some other.compact

/-- A column of texts that has to hold one. -/
def text (v : ColumnValue) : Except Refusal String :=
  match v.text? with
  | some s => .ok s
  | none => .error (.isNull v.column)

/-- A column of documents. -/
def document (v : ColumnValue) : Except Refusal JsonColumn := v.text.map JsonColumn.ofText

/-- A column of integers that has to hold one. -/
def int (v : ColumnValue) : Except Refusal Int :=
  match v.value with
  | .num (.int i) => .ok i
  | .bool b => .ok (if b then 1 else 0)
  | .str s => match Text.i64? s with
    | some i => .ok i
    | none => .error (.isNull v.column)
  | _ => .error (.isNull v.column)

/-- A column of integers. -/
def int? (v : ColumnValue) : Except Refusal (Option Int) :=
  match v.value with
  | .null => .ok none
  | _ => v.int.map some

/-- A column of doubles that has to hold one. -/
def double (v : ColumnValue) : Except Refusal Binary64 :=
  match v.value with
  | .num (.float x) => .ok x
  | _ => v.int.map Binary64.ofInt

end ColumnValue

/-- The row of a port with one column set. -/
def PortRow.set (r : PortRow) (v : ColumnValue) : Except Refusal PortRow :=
  match v.column with
  | "port" => return { r with port := ← v.int }
  | "node_id" => return { r with owner := ← v.int }
  | "purpose" => return { r with purpose := ← v.text }
  | "status" => return { r with status := ← v.text }
  | "allocated_at" => return { r with allocatedAt := ← v.text }
  | "released_at" => return { r with releasedAt := v.text? }
  | c => throw (.unknownColumn c)

/-- The row of a node with one column set. -/
def NodeRow.set (r : NodeRow) (v : ColumnValue) : Except Refusal NodeRow :=
  match v.column with
  | "name" => return { r with name := ← v.text }
  | "protocol" => return { r with protocol := ← v.text }
  | "host" => return { r with host := ← v.text }
  | "port" => return { r with port := ← v.int }
  | "params" => return { r with params := ← v.document }
  | "rate" => return { r with rate := ← v.double }
  | "group_ids" => return { r with groups := ← v.document }
  | "agent_url" => return { r with agentUrl := v.text? }
  | "agent_token" => return { r with agentToken := v.text? }
  | "created_at" => return { r with createdAt := ← v.text }
  | "updated_at" => return { r with updatedAt := ← v.text }
  | c => throw (.unknownColumn c)

/-- A row of the history with one column set. -/
def HistoryRow.set (r : HistoryRow) (v : ColumnValue) : Except Refusal HistoryRow :=
  match v.column with
  | "node_id" => return { r with node := ← v.int }
  | "action" => return { r with action := ← v.text }
  | "old_config" => return { r with oldConfig := v.text? }
  | "new_config" => return { r with newConfig := v.text? }
  | "success" => return { r with success := (← v.int) != 0 }
  | "error" => return { r with error := v.text? }
  | "created_at" => return { r with createdAt := ← v.text }
  | c => throw (.unknownColumn c)

/-- The row of a user with one column set. -/
def UserRow.set (r : UserRow) (v : ColumnValue) : Except Refusal UserRow :=
  match v.column with
  | "uuid" => return { r with uuid := ← v.text }
  | "token_hash" => return { r with tokenHash := ← v.text }
  | "group_id" => return { r with group := ← v.int? }
  | "transfer_enable" => return { r with quota := ← v.int }
  | "u" => return { r with upload := ← v.int }
  | "d" => return { r with download := ← v.int }
  | "banned" => return { r with banned := (← v.int) != 0 }
  | "expired_at" => return { r with expiresAt := v.text? }
  | "speed_limit" => return { r with speedLimit := ← v.int? }
  | "created_at" => return { r with createdAt := ← v.text }
  | c => throw (.unknownColumn c)

/-- A row of staged traffic with one column set. -/
def StagedRow.set (r : StagedRow) (v : ColumnValue) : Except Refusal StagedRow :=
  match v.column with
  | "node_id" => return { r with node := ← v.int }
  | "record_at" => return { r with day := ← v.text }
  | "payload" => return { r with traffic := ← v.document }
  | "created_at" => return { r with createdAt := ← v.text }
  | c => throw (.unknownColumn c)

/-- The row of a user's day with one column set. -/
def UserDayRow.set (r : UserDayRow) (v : ColumnValue) : Except Refusal UserDayRow :=
  match v.column with
  | "user_id" => return { r with user := ← v.int }
  | "server_rate" => return { r with rate := ← v.double }
  | "record_at" => return { r with day := ← v.text }
  | "u" => return { r with upload := ← v.int }
  | "d" => return { r with download := ← v.int }
  | c => throw (.unknownColumn c)

/-- The row of a node's day with one column set. -/
def NodeDayRow.set (r : NodeDayRow) (v : ColumnValue) : Except Refusal NodeDayRow :=
  match v.column with
  | "node_id" => return { r with node := ← v.int }
  | "protocol" => return { r with protocol := ← v.text }
  | "record_at" => return { r with day := ← v.text }
  | "u" => return { r with upload := ← v.int }
  | "d" => return { r with download := ← v.int }
  | c => throw (.unknownColumn c)

/-- Set a column of the row of an id, unless another row stands in its way. The answer is how many
rows there were of that id. -/
def Table.overwrite {ρ : Type} (t : Table ρ) (id : Int) (set : ρ → Except Refusal ρ)
    (blocks : ρ → ρ → Option String) : Except Refusal (Nat × Table ρ) :=
  match t.get? id with
  | none => .ok (0, t)
  | some row => do
    let changed ← set row
    let others := t.rows.filter (·.1 != id)
    match others.findSome? fun (_, other) => blocks changed other with
    | some column => throw (.notUnique column)
    | none => return (1, t.modifyId id fun _ => changed)

namespace Fleet

/-- Set a column of a row of a table. The answer is how many rows were changed. -/
def overwrite (s : Fleet) (table : String) (id : Int) (v : ColumnValue) : Except Refusal (Nat × Fleet) :=
  match table with
  | "port_allocations" => do
    let blocks (a b : PortRow) := if a.isActive && b.isActive && a.port == b.port then some "port_allocations.port" else none
    let (n, rows) ← s.roster.ports.table.overwrite id (·.set v) blocks
    return (n, { s with roster := { s.roster with ports := { s.roster.ports with table := rows } } })
  | "nodes" => do
    let (n, nodes) ← s.roster.nodes.overwrite id (·.set v) fun _ _ => none
    return (n, { s with roster := { s.roster with nodes } })
  | "config_history" => do
    let (n, history) ← s.roster.history.overwrite id (·.set v) fun _ _ => none
    return (n, { s with roster := { s.roster with history } })
  | "users" => do
    let blocks (a b : UserRow) :=
      if a.uuid == b.uuid then some "users.uuid"
      else if a.tokenHash == b.tokenHash then some "users.token_hash"
      else none
    let (n, users) ← s.ledger.users.overwrite id (·.set v) blocks
    return (n, { s with ledger := { s.ledger with users } })
  | "traffic_staging" => do
    let (n, stagedRows) ← s.ledger.stagedRows.overwrite id (·.set v) fun _ _ => none
    return (n, { s with ledger := { s.ledger with stagedRows } })
  | "stat_user" => do
    let blocks (a b : UserDayRow) :=
      if a.user == b.user && Ledger.sameRate a.rate b.rate && a.day == b.day then some "stat_user.user_id" else none
    let (n, userDayRows) ← s.ledger.userDayRows.overwrite id (·.set v) blocks
    return (n, { s with ledger := { s.ledger with userDayRows } })
  | "stat_server" => do
    let blocks (a b : NodeDayRow) :=
      if a.node == b.node && a.day == b.day then some "stat_server.node_id" else none
    let (n, nodeDayRows) ← s.ledger.nodeDayRows.overwrite id (·.set v) blocks
    return (n, { s with ledger := { s.ledger with nodeDayRows } })
  | name => throw (.unknownTable name)

end Fleet

end ProxyFleet

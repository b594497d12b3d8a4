import ProxyFleet.Nodes.Basic
import ProxyFleet.Store.Error
import ProxyFleet.Store.Table

/-!
# The tables of nodes and of their history

* `NodeRow.ofNode`, `NodeRow.node` : a node as a row, and what a row says;
* `NodeTable.find?`, `NodeTable.list`, `NodeTable.write` : reading and changing the table;
* `HistoryTable.append`, `HistoryTable.ofNode` : the record of what was done to a node.
-/

namespace ProxyFleet

set_option autoImplicit false

/-- A row of the table of nodes, column by column. -/
structure NodeRow where
  name : String
  protocol : String
  host : String
  port : Int
  params : JsonColumn
  rate : Binary64
  groups : JsonColumn
  agentUrl : Option String
  agentToken : Option String
  createdAt : String
  updatedAt : String

namespace NodeRow

/-- The row of a node. Its rate is one that counts traffic. -/
def ofNode (n : Node) : NodeRow where
  name := n.name
  protocol := n.protocolName
  host := n.host
  port := n.port.toNat
  params := some n.params.canonical
  rate := normalizeRate n.rate
  groups := some (.ints n.groups)
  agentUrl := n.agentUrl
  agentToken := n.agentToken
  createdAt := n.createdAt.stamp
  updatedAt := n.updatedAt.stamp

/-- The node that a row describes. -/
def node (now : Instant) (id : Int) (r : NodeRow) : Except StoreError Node := do
  let form ← r.params.read fun
    | .obj fields => .ok ((Json.obj fields).sorted.obj?.getD [])
    | v => .error (.wrongType v "a map")
  let params ← (Params.ofCanonical r.protocol form).mapError fun e => .corrupt (.params id e)
  let port ← portColumn r.port
  let groups ← r.groups.read (Decoder.list Decoder.i64)
  return { id, name := r.name, host := r.host, port, params, rate := r.rate, groups
           agentUrl := r.agentUrl, agentToken := r.agentToken
           createdAt := timeColumn now r.createdAt, updatedAt := timeColumn now r.updatedAt }

end NodeRow

/-- The table of nodes. -/
abbrev NodeTable := Table NodeRow

namespace NodeTable

/-- The node of an id. -/
def find? (t : NodeTable) (id : Int) (now : Instant) : Except StoreError (Option Node) :=
  match t.get? id with
  | none => .ok none
  | some r => (r.node now id).map some

/-- Every node, in the order in which they were added. -/
def list (t : NodeTable) (now : Instant) : Except StoreError (List Node) :=
  t.rows.mapM fun (id, r) => r.node now id

/-- Write a node over its row; when it was created stays. -/
def write (t : NodeTable) (n : Node) : NodeTable :=
  t.modifyId n.id fun r => { NodeRow.ofNode n with createdAt := r.createdAt }

end NodeTable

/-! ## History -/

/-- What was done to a node. -/
inductive NodeAction where
  | create
  | update
  | delete
  deriving DecidableEq

namespace NodeAction

/-- Every action. -/
def all : List NodeAction := [create, update, delete]

/-- The name of an action. -/
def name : NodeAction → String
  | create => "create"
  | update => "update"
  | delete => "delete"

/-- The action of a name. -/
def ofName? (s : String) : Option NodeAction := all.find? (·.name == s)

end NodeAction

/-- A row of the history, column by column. -/
structure HistoryRow where
  node : Int
  action : String
  oldConfig : Option String
  newConfig : Option String
  success : Bool
  error : Option String
  createdAt : String

/-- The history of nodes. -/
abbrev HistoryTable := Table HistoryRow

/-- An attempt to change a node. -/
structure HistoryEntry where
  id : Int
  node : Int
  action : NodeAction
  oldConfig : Option String
  newConfig : Option String
  success : Bool
  error : Option String
  createdAt : Instant

/-- The document of an attempt. -/
def HistoryEntry.toJson (h : HistoryEntry) : Json :=
  .obj [("id", .int h.id), ("node_id", .int h.node), ("action", .str h.action.name),
    ("old_config", Json.orNull .str h.oldConfig), ("new_config", Json.orNull .str h.newConfig),
    ("success", .bool h.success), ("error", Json.orNull .str h.error),
    ("created_at", .str h.createdAt.text)]

/-- The attempt that a row describes. -/
def HistoryRow.entry (now : Instant) (id : Int) (r : HistoryRow) : Except StoreError HistoryEntry :=
  match NodeAction.ofName? r.action with
  | none => .error (.corrupt (.unknownAction r.action))
  | some action => .ok
    { id, node := r.node, action, oldConfig := r.oldConfig, newConfig := r.newConfig
      success := r.success, error := r.error, createdAt := timeColumn now r.createdAt }

namespace HistoryTable

/-- Add an attempt, which failed if an error is given. -/
def append (t : HistoryTable) (node : Int) (action : NodeAction) (oldConfig newConfig error : Option String)
    (now : Instant) : HistoryTable :=
  t.insert { node, action := action.name, oldConfig, newConfig, success := error.isNone, error
             createdAt := now.stamp }

/-- The newest attempts on a node. -/
def ofNode (t : HistoryTable) (node limit : Int) (now : Instant) : Except StoreError (List HistoryEntry) :=
  (limited limit (t.select (·.node == node)).reverse).mapM fun (id, r) => r.entry now id

end HistoryTable

end ProxyFleet

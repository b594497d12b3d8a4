import ProxyFleet.Json.Decode
import ProxyFleet.Nodes.Basic

/-!
# Requests about nodes

`NodeRequest` describes a node that is to be, `NodeChange` what is to change about one that is;
`checkNames` refuses what cannot name a node.
-/

namespace ProxyFleet

set_option autoImplicit false

/-- A node that is to be. -/
structure NodeRequest where
  name : String
  host : String
  protocol : String
  params : JsonFields := []
  /-- The port it listens on; one of the range if none is asked for. -/
  port : Option UInt16 := none
  rate : Option Binary64 := none
  groups : List Int := []
  agentUrl : Option String := none
  agentToken : Option String := none

/-- What is to change about a node; what is absent stays. -/
structure NodeChange where
  name : Option String := none
  host : Option String := none
  protocol : Option String := none
  params : Option JsonFields := none
  port : Option UInt16 := none
  rate : Option Binary64 := none
  groups : Option (List Int) := none
  agentUrl : Option String := none
  agentToken : Option String := none

/-- Reads an object's fields in sorted order. -/
def Decoder.fields : Decoder JsonFields
  | .obj fields => .ok ((Json.obj fields).sorted.obj?.getD [])
  | v => .error (.wrongType v "a map")

open Decoder in
/-- Reads a node that is to be. -/
def NodeRequest.decoder : Decoder NodeRequest :=
  record "CreateNodeRequest" (NodeRequest.mk <$> Fields.required "name" text
    <*> Fields.required "host" text <*> Fields.required "protocol" text
    <*> Fields.default "params" Decoder.fields [] <*> Fields.optional "port" u16
    <*> Fields.optional "rate" f64 <*> Fields.default "group_ids" (list i64) []
    <*> Fields.optional "agent_url" text <*> Fields.optional "agent_token" text)

open Decoder in
/-- Reads what is to change about a node. -/
def NodeChange.decoder : Decoder NodeChange :=
  record "UpdateNodeRequest" (NodeChange.mk <$> Fields.placed "name" text
    <*> Fields.placed "host" text <*> Fields.placed "protocol" text
    <*> Fields.placed "params" Decoder.fields <*> Fields.placed "port" u16
    <*> Fields.placed "rate" f64 <*> Fields.placed "group_ids" (list i64)
    <*> Fields.placed "agent_url" text <*> Fields.placed "agent_token" text)

/-- Why a name or a host cannot be a node's. -/
inductive NameFault where
  | nameEmpty
  | nameReserved (name : String)
  | hostEmpty

/-- The text on a name or a host that cannot be a node's. -/
def NameFault.message : NameFault → String
  | nameEmpty => "name must not be empty"
  | nameReserved name => s!"name '{name}' is reserved for a built-in outbound"
  | hostEmpty => "host must not be empty"

/-- Refuses names and hosts that are blank, and names that every engine document has. -/
def checkNames (name host : String) : Except NameFault Unit :=
  if (Text.trim name).isEmpty then .error .nameEmpty
  else if Engine.reservedTags.contains (Text.trim name) then .error (.nameReserved (Text.trim name))
  else if (Text.trim host).isEmpty then .error .hostEmpty
  else .ok ()

/-- A text that is given replaces another; an empty one clears it. -/
def replaced (given current : Option String) : Option String :=
  match given with
  | some s => if s.isEmpty then none else some s
  | none => current

/-- The node with the changes that need no check. -/
def NodeChange.apply (c : NodeChange) (n : Node) : Node :=
  { n with
    name := c.name.getD n.name
    host := c.host.getD n.host
    rate := c.rate.getD n.rate
    groups := c.groups.getD n.groups
    agentUrl := replaced c.agentUrl n.agentUrl
    agentToken := replaced c.agentToken n.agentToken }

end ProxyFleet

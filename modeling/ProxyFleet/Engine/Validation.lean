import ProxyFleet.Engine.Codec
import ProxyFleet.Net.Host
import ProxyFleet.Text.Uuid

/-!
# Checking engine documents

`Document.validate` lists what is wrong with a document. Only errors make it invalid; warnings are
about names that nothing defines, and suggestions about sections that are missing.

* `Finding` : a fault, the place where it is, and the rule that is broken;
* `Document.errors` : outbounds first, then inbounds;
* `Document.warnings` : group members, then name resolution, then routing.
-/

namespace ProxyFleet.Engine

set_option autoImplicit false

/-- The kinds of outbounds. -/
def outboundKinds : List String :=
  ["direct", "block", "dns", "selector", "urltest", "vmess", "vless", "trojan", "shadowsocks",
   "hysteria", "hysteria2", "tuic", "anytls", "socks", "http"]

/-- The kinds of outbounds that connect to a server. -/
def proxyKinds : List String :=
  ["vmess", "vless", "trojan", "shadowsocks", "hysteria", "hysteria2", "tuic", "anytls", "socks",
   "http"]

/-- The kinds of inbounds. -/
def inboundKinds : List String := ["mixed", "socks", "http", "tun", "redirect", "tproxy"]

/-- Where in a document a fault is. -/
inductive Place where
  | document
  | outbounds
  | outbound (index : Nat) (field : String)
  | inbound (index : Nat) (field : String)
  | dnsServer (index : Nat) (field : String)
  | dnsRule (index : Nat) (field : String)
  | dnsFinal
  | routeRule (index : Nat) (field : String)
  | routeFinal
  deriving DecidableEq

/-- The path of a place. -/
def Place.path : Place → String
  | document => "$"
  | outbounds => "outbounds"
  | outbound i field => s!"outbounds[{i}].{field}"
  | inbound i field => s!"inbounds[{i}].{field}"
  | dnsServer i field => s!"dns.servers[{i}].{field}"
  | dnsRule i field => s!"dns.rules[{i}].{field}"
  | dnsFinal => "dns.final"
  | routeRule i field => s!"route.rules[{i}].{field}"
  | routeFinal => "route.final"

/-- The rules of a document. -/
inductive Rule where
  | json
  | required
  | unique
  | enum
  | host
  | range
  | uuid
  | ip
  | reference
  deriving DecidableEq

/-- The name of a rule. -/
def Rule.name : Rule → String
  | json => "json"
  | required => "required"
  | unique => "unique"
  | enum => "enum"
  | host => "host"
  | range => "range"
  | uuid => "uuid"
  | ip => "ip"
  | reference => "reference"

/-- One broken rule, with the value that breaks it. -/
structure Finding where
  place : Place
  value : String
  rule : Rule
  message : String
  deriving DecidableEq

/-- A finding on one line. -/
def Finding.text (f : Finding) : String := s!"{f.place.path}: {f.message}"

/-- What a check of a document found. -/
structure Validation where
  valid : Bool
  errors : List Finding
  warnings : List Finding
  suggestions : List String
  deriving DecidableEq

/-- A finding as an object. -/
def Finding.toJson (f : Finding) : Json :=
  .obj [("field", .str f.place.path), ("value", .str f.value), ("rule", .str f.rule.name),
    ("message", .str f.message)]

/-- The result of a check as an object. -/
def Validation.toJson (v : Validation) : Json :=
  .obj [("valid", .bool v.valid), ("errors", .arr (v.errors.map Finding.toJson)),
    ("warnings", .arr (v.warnings.map Finding.toJson)), ("suggestions", .strings v.suggestions)]

/-- All errors on one line. -/
def Validation.summary (v : Validation) : String := "; ".intercalate (v.errors.map Finding.text)

/-! ## Checks of one value -/

/-- A value that has to be there. -/
def missing (place : Place) (what : String) : Finding := ⟨place, "", .required, s!"{what} is required"⟩

/-- A port that is out of range. -/
def checkPort (place : Place) (field : String) (port : Int) : List Finding :=
  if 1 ≤ port ∧ port ≤ 65535 then []
  else [⟨place, toString port, .range, s!"{field} must be between 1 and 65535, got {port}"⟩]

/-- A text that has to be given and not be empty. -/
def checkPresent (place : Place) (field : String) (value : Option String) : List Finding :=
  if (value.getD "").isEmpty then [missing place field] else []

/-- A value that has to be listed. -/
def checkListed (place : Place) (what value : String) (allowed : List String) : List Finding :=
  if allowed.contains value then []
  else [⟨place, value, .enum, s!"unsupported {what} '{value}'"⟩]

/-- A tag has to be given and differ from those before it. -/
def checkTag (place : Nat → String → Place) (list : String) (tags : List String) (i : Nat)
    (tag : String) : List Finding :=
  if tag.isEmpty then [missing (place i "tag") "tag"]
  else
    let first := tags.idxOf tag
    if first < i then
      [⟨place i "tag", tag, .unique, s!"duplicate tag '{tag}' at {list}[{first}] and {list}[{i}]"⟩]
    else []

/-! ## Outbounds -/

/-- A proxy has to have a server and a port. -/
def checkEndpoint (i : Nat) (o : Outbound) : List Finding :=
  let server := o.server.getD ""
  (if server.isEmpty then [missing (.outbound i "server") "server"]
    else if Net.isHost server then []
    else [⟨.outbound i "server", server, .host, s!"'{server}' is not a valid hostname or IP address"⟩])
  ++ match o.serverPort with
    | none => [missing (.outbound i "server_port") "server_port"]
    | some port => checkPort (.outbound i "server_port") "server_port" port

/-- An outbound that identifies its user by a uuid. -/
def checkUuid (i : Nat) (o : Outbound) : List Finding :=
  let uuid := o.uuid.getD ""
  if uuid.isEmpty then [missing (.outbound i "uuid") "uuid"]
  else if Text.isUuid uuid then []
  else [⟨.outbound i "uuid", uuid, .uuid, s!"'{uuid}' is not a valid UUID"⟩]

/-- An outbound with a password. -/
def checkPassword (i : Nat) (o : Outbound) : List Finding :=
  checkPresent (.outbound i "password") "password" o.password

/-- The fields that the kind of an outbound asks for. -/
def checkKindFields (i : Nat) (o : Outbound) : List Finding :=
  if o.kind = "vmess" then
    checkUuid i o ++ match o.security with
      | some s => checkListed (.outbound i "security") "vmess security" s vmessSecurities
      | none => []
  else if o.kind = "vless" then
    checkUuid i o ++ match o.flow with
      | some s => checkListed (.outbound i "flow") "vless flow" s vlessFlows
      | none => []
  else if o.kind = "tuic" then checkUuid i o
  else if o.kind = "trojan" then
    checkPassword i o ++
      if o.tls.any (·.enabled) then []
      else [⟨.outbound i "tls", "", .required, "trojan requires tls to be enabled"⟩]
  else if o.kind = "shadowsocks" then
    (let method := o.method.getD ""
      if method.isEmpty then [missing (.outbound i "method") "method"]
      else checkListed (.outbound i "method") "shadowsocks method" method shadowsocksMethods)
    ++ checkPassword i o
  else if o.kind = "hysteria2" ∨ o.kind = "anytls" then checkPassword i o
  else if o.kind = "hysteria" then
    checkPresent (.outbound i "auth_str") "auth_str" ((Json.field? o.extra "auth_str").bind Json.str?)
  else []

/-- The errors of one outbound; one of an unknown kind is not looked at further. -/
def checkOutbound (tags : List String) (i : Nat) (o : Outbound) : List Finding :=
  checkTag .outbound "outbounds" tags i o.tag ++
    if outboundKinds.contains o.kind then
      (if proxyKinds.contains o.kind then checkEndpoint i o else []) ++ checkKindFields i o
    else [⟨.outbound i "type", o.kind, .enum, s!"unsupported outbound type '{o.kind}'"⟩]

namespace Document

/-- The tags of the outbounds. -/
def outboundTags (d : Document) : List String := d.outbounds.map (·.tag)

/-- The errors of the outbounds. -/
def outboundErrors (d : Document) : List Finding :=
  if d.outbounds.isEmpty then
    [⟨.outbounds, "", .required, "at least one outbound is required"⟩]
  else (d.outbounds.mapIdx (checkOutbound d.outboundTags)).flatten

end Document

/-! ## Inbounds -/

/-- The errors of one inbound. -/
def checkInbound (tags : List String) (i : Nat) (b : Inbound) : List Finding :=
  checkListed (.inbound i "type") "inbound type" b.kind inboundKinds
  ++ checkTag .inbound "inbounds" tags i b.tag
  ++ (match b.listen with
    | none => []
    | some address =>
      if Net.isIPAddress address then []
      else [⟨.inbound i "listen", address, .ip, s!"listen address '{address}' is not an IP address"⟩])
  ++ match b.listenPort with
    | none => []
    | some port => checkPort (.inbound i "listen_port") "listen_port" port

namespace Document

/-- The errors of the inbounds. -/
def inboundErrors (d : Document) : List Finding :=
  (d.inbounds.mapIdx (checkInbound (d.inbounds.map (·.tag)))).flatten

/-- Every error. -/
def errors (d : Document) : List Finding := d.outboundErrors ++ d.inboundErrors

end Document

/-! ## References -/

/-- A name that has to be defined. -/
def checkDefined (place : Place) (defined : List String) (name message : String) : List Finding :=
  if defined.contains name then [] else [⟨place, name, .reference, message⟩]

/-- The warnings about a group's members. -/
def checkMembers (tags : List String) (i : Nat) (o : Outbound) : List Finding :=
  (o.members.getD []).flatMap fun member =>
    checkDefined (.outbound i "outbounds") tags member s!"group member '{member}' does not exist"

/-- The warnings about a name server. -/
def checkDnsServer (tags : List String) (i : Nat) (s : DnsServer) : List Finding :=
  (if s.address.isEmpty then
    [⟨.dnsServer i "address", "", .required, "dns server has no address"⟩] else [])
  ++ match s.detour with
    | none => []
    | some detour =>
      checkDefined (.dnsServer i "detour") tags detour s!"detour outbound '{detour}' does not exist"

/-- The warnings about name resolution. -/
def checkDns (tags : List String) (d : Dns) : List Finding :=
  let servers := d.servers.map (·.tag)
  (d.servers.mapIdx (checkDnsServer tags)).flatten
  ++ (d.rules.mapIdx fun i r =>
      checkDefined (.dnsRule i "server") servers r.server s!"dns server '{r.server}' does not exist").flatten
  ++ match d.finalServer with
    | none => []
    | some name => checkDefined .dnsFinal servers name "final dns server does not exist"

/-- The warnings about routing. -/
def checkRoute (tags : List String) (r : Route) : List Finding :=
  (r.rules.mapIdx fun i rule =>
    checkDefined (.routeRule i "outbound") tags rule.outbound
      s!"route outbound '{rule.outbound}' does not exist").flatten
  ++ match r.finalOutbound with
    | none => []
    | some name => checkDefined .routeFinal tags name s!"final outbound '{name}' does not exist"

namespace Document

/-- Every warning. -/
def warnings (d : Document) : List Finding :=
  (d.outbounds.mapIdx (checkMembers d.outboundTags)).flatten
  ++ (d.dns.map (checkDns d.outboundTags)).getD []
  ++ (d.route.map (checkRoute d.outboundTags)).getD []

/-- Every suggestion. -/
def suggestions (d : Document) : List String :=
  (if d.inbounds.isEmpty then
    ["add an inbound (for example a mixed listener) so local clients can connect"] else [])
  ++ (if d.dns.isNone then
    ["add a dns section to avoid leaking queries to the system resolver"] else [])
  ++ (if d.route.isNone then
    ["add route rules to keep private and domestic traffic direct"] else [])
  ++ (if d.outbounds.any (fun o => proxyKinds.contains o.kind)
      ∧ ¬d.outbounds.any (fun o => o.kind == "selector") then
    ["add a selector outbound to switch between proxy outbounds"] else [])

/-- The result of checking a document. -/
def validate (d : Document) : Validation :=
  { valid := d.errors.isEmpty, errors := d.errors, warnings := d.warnings
    suggestions := d.suggestions }

/-- The result of checking a JSON value that may not be a document at all. -/
def validateJson (v : Json) : Validation :=
  match Document.decoder v with
  | .ok d => d.validate
  | .error e =>
    { valid := false, warnings := [], suggestions := []
      errors := [⟨.document, "", .json, s!"document is not a valid config: {e.message}"⟩] }

end Document

end ProxyFleet.Engine

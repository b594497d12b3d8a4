import ProxyFleet.Protocol.Error
import ProxyFleet.Protocol.Params
import ProxyFleet.Text.Blank
import ProxyFleet.Text.Decimal

/-!
# Raw parameters

Readers for the fields of a parameter object as an operator writes it. A field that is `null`
counts as absent.

* `Raw.text?`, `Raw.bool?`, `Raw.nat?`, `Raw.requiredText` : single fields;
* `Raw.tls?` : TLS settings from the `tls` field and the fields beside it;
* `Raw.transport?` : a transport from `network` and `network_settings`.
-/

namespace ProxyFleet.Raw

set_option autoImplicit false

/-- A field whose value has another kind than the one expected. -/
def wrongKind (p : Protocol) (key expected : String) (v : Json) : ParamError :=
  ⟨p.name, key, .mismatch expected v.kind⟩

/-- The value of a field that is present and not `null`. -/
def given? (raw : JsonFields) (key : String) : Option Json :=
  match Json.field? raw key with
  | some .null => none
  | v? => v?

/-- A text that has to be given and not be empty. -/
def requiredText (p : Protocol) (raw : JsonFields) (key : String) : Except ParamError String :=
  match given? raw key with
  | none => .error ⟨p.name, key, .missing⟩
  | some (.str s) => if s.isEmpty then .error ⟨p.name, key, .empty⟩ else .ok s
  | some v => .error (wrongKind p key "string" v)

/-- A text that may be given. -/
def text? (p : Protocol) (raw : JsonFields) (key : String) : Except ParamError (Option String) :=
  match given? raw key with
  | none => .ok none
  | some (.str s) => .ok (some s)
  | some v => .error (wrongKind p key "string" v)

/-- A text that may be given; an empty one counts as absent. -/
def nonEmptyText? (p : Protocol) (raw : JsonFields) (key : String) :
    Except ParamError (Option String) :=
  (text? p raw key).map fun s? => s?.filter (!·.isEmpty)

/-- A truth value that may be given. -/
def bool? (p : Protocol) (raw : JsonFields) (key : String) : Except ParamError (Option Bool) :=
  match given? raw key with
  | none => .ok none
  | some (.bool b) => .ok (some b)
  | some v => .error (wrongKind p key "boolean" v)

/-- The natural number below `2 ^ 64` that a number stands for: a double counts where it has no
fractional part and is not negative, and one that is too large stands for the largest. -/
def natOfNumber? : JsonNumber → Option Nat
  | .int i => if 0 ≤ i then some i.toNat else none
  | .float x =>
    if x.isIntegral ∧ (x.isZero ∨ ¬x.isNegative) then some (min x.truncToNat (Nat.pow 2 64 - 1)) else none

/-- A natural number below `2 ^ 64` that may be given, as a number or as its decimal digits. -/
def nat? (p : Protocol) (raw : JsonFields) (key : String) : Except ParamError (Option Nat) :=
  match given? raw key with
  | none => .ok none
  | some (.num n) =>
    match natOfNumber? n with
    | some k => .ok (some k)
    | none => .error ⟨p.name, key, .notNatural n⟩
  | some (.str s) =>
    match Text.u64? (Text.trim s) with
    | some k => .ok (some k)
    | none => .error ⟨p.name, key, .mismatch "integer" s!"'{s}'"⟩
  | some v => .error (wrongKind p key "integer" v)

/-- A bandwidth of 32 bits that may be given. -/
def bandwidth? (p : Protocol) (raw : JsonFields) (key : String) :
    Except ParamError (Option UInt32) := do
  match ← nat? p raw key with
  | none => return none
  | some n =>
    if n < Nat.pow 2 32 then return some (UInt32.ofNat n) else throw ⟨p.name, key, .bandwidthTooLarge⟩

/-- How an allowed value is listed in a message. -/
def listed (value : String) : String := if value.isEmpty then "\"\"" else value

/-- Refuses a value that is not among the allowed ones. -/
def oneOf (p : Protocol) (key value : String) (allowed : List String) : Except ParamError Unit :=
  if allowed.contains value then .ok ()
  else
    let choices := ", ".intercalate (allowed.map listed)
    .error ⟨p.name, key, .mismatch s!"one of {choices}" s!"'{value}'"⟩

/-- One text or a list of texts; `null` is the empty list. -/
def texts (p : Protocol) (key : String) : Json → Except ParamError (List String)
  | .null => .ok []
  | .str s => .ok [s]
  | .arr items => items.mapM fun
    | .str s => .ok s
    | v => .error ⟨p.name, key, .entryNotText v.kind⟩
  | v => .error (wrongKind p key "string or array" v)

/-- The first text that is not empty, by source and then by key. -/
def firstText? (sources : List JsonFields) (keys : List String) : Option String :=
  sources.findSome? fun fields => keys.findSome? fun key =>
    ((Json.field? fields key).bind Json.str?).filter (!·.isEmpty)

/-- The fields of an object that may be given; where it is absent there are none. -/
def object (p : Protocol) (raw : JsonFields) (key : String) : Except ParamError JsonFields :=
  match given? raw key with
  | none => .ok []
  | some (.obj fields) => .ok fields
  | some v => .error (wrongKind p key "object" v)

/-! ## TLS -/

/-- What a protocol makes of TLS. -/
structure TlsUse where
  /-- TLS is on whatever the parameters say. -/
  forced : Bool := false
  /-- The handshake imitates a client. -/
  utls : Bool := false
  /-- REALITY may be asked for. -/
  reality : Bool := false

/-- Whether the `tls` field turns TLS on, and the settings it holds. -/
def tlsSection (p : Protocol) (use : TlsUse) (raw : JsonFields) :
    Except ParamError (Bool × JsonFields) :=
  match given? raw "tls" with
  | none => .ok (use.forced, [])
  | some (.bool b) => .ok (b || use.forced, [])
  | some (.obj fields) => do
    let enabled := (← bool? p fields "enabled").getD true
    return (enabled || use.forced, fields)
  | some v => .error (wrongKind p "tls" "boolean or object" v)

/-- Whether certificates go unchecked, by the first source that says so either way. -/
def insecure (p : Protocol) : List JsonFields → Except ParamError Bool
  | [] => .ok false
  | fields :: rest => do
    if let some b ← bool? p fields "insecure" then return b
    if let some b ← bool? p fields "allow_insecure" then return b
    insecure p rest

/-- The client fingerprint: from the `utls` section, else from a field beside it, else `chrome`. -/
def fingerprint (tls raw : JsonFields) : String :=
  let inSection := (Json.field? tls "utls").bind (Json.get? · "fingerprint") |>.bind Json.str?
  (inSection.or (firstText? [tls, raw] ["fingerprint"])).getD "chrome"

/-- REALITY settings, where they are given and on. -/
def reality? (p : Protocol) (tls raw : JsonFields) : Except ParamError (Option Reality) := do
  match (Json.field? tls "reality").or (Json.field? raw "reality") with
  | none => return none
  | some .null => return none
  | some (.obj fields) =>
    if (← bool? p fields "enabled").getD true then
      match ((Json.field? fields "public_key").bind Json.str?).filter (!·.isEmpty) with
      | none => throw ⟨p.name, "reality.public_key", .publicKeyMissing⟩
      | some publicKey =>
        return some ⟨true, publicKey, (← text? p fields "short_id").getD ""⟩
    else return none
  | some v => throw (wrongKind p "reality" "object" v)

/-- TLS settings: none where TLS is off. A setting in the `tls` object goes before one beside it. -/
def tls? (p : Protocol) (use : TlsUse) (raw : JsonFields) : Except ParamError (Option Tls) := do
  let (enabled, fields) ← tlsSection p use raw
  if !enabled then return none
  let serverName := firstText? [fields, raw] ["server_name", "sni"]
  let insecure ← insecure p [fields, raw]
  let alpn ← match (Json.field? fields "alpn").or (Json.field? raw "alpn") with
    | some v => texts p "alpn" v
    | none => pure []
  let utls ←
    if use.utls then
      let name := fingerprint fields raw
      oneOf p "fingerprint" name utlsFingerprints
      pure (some ⟨true, name⟩)
    else pure none
  let reality ← if use.reality then reality? p fields raw else pure none
  return some { serverName, insecure, alpn, utls, reality }

/-- TLS settings of a protocol that does not do without. -/
def forcedTls (p : Protocol) (raw : JsonFields) : Except ParamError Tls := do
  return (← tls? p { forced := true } raw).getD {}

/-! ## Transport -/

/-- The host of a websocket request: a header, or else a setting of its own. -/
def websocketHost? (settings : JsonFields) : Option Json :=
  let header := (Json.field? settings "headers").bind fun headers =>
    (headers.get? "Host").or (headers.get? "host")
  header.or (Json.field? settings "host")

/-- The hosts of a transport. -/
def hosts (p : Protocol) : Option Json → Except ParamError (List String)
  | none => .ok []
  | some v => texts p "network_settings.host" v

/-- A transport: none for a plain stream. -/
def transport? (p : Protocol) (raw : JsonFields) : Except ParamError (Option Transport) := do
  let some name ← text? p raw "network" | return none
  let some network := Network.ofName? name
    | throw ⟨p.name, "network", .mismatch "one of tcp, ws, grpc, h2, quic" s!"'{name}'"⟩
  let settings ← object p raw "network_settings"
  match network with
  | .tcp =>
    let header := (Json.field? settings "header").bind (Json.get? · "type") |>.bind Json.str?
    if header = some "http" then return some { network, headerType := "http", path := "/" }
    else return none
  | .ws =>
    let path := (← text? p settings "path").getD "/"
    return some { network, path, host := ← hosts p (websocketHost? settings) }
  | .grpc =>
    let serviceName := (firstText? [settings] ["serviceName", "service_name"]).getD "TunService"
    return some { network, serviceName }
  | .h2 =>
    let path := (← text? p settings "path").getD "/"
    return some { network, path, host := ← hosts p (Json.field? settings "host") }
  | .quic =>
    return some { network, security := (← text? p settings "security").getD "none" }

end ProxyFleet.Raw

import ProxyFleet.Proofs.Json.Record
import ProxyFleet.Proofs.Subscription.LinkParts
import ProxyFleet.Subscription.Render

/-!
# Share links are read as the servers they are for

* `read?` : a reader of links;
* `readingOf` : what it reads of a server's link;
* `read?_link`, `newline_notMem_link` : links are read, and are on one line;
* `bundle_read` : so is a bundle, which is base64 of the links.
-/

namespace ProxyFleet.Subscription.ShareLink

set_option autoImplicit false

open Text (splitOnce? percentEncode percentDecode? isEncoded)

/-! ## A reader -/

/-- What can be read from a link. -/
structure Reading where
  scheme : String
  credential : List String
  host : String
  port : Nat
  query : Query
  name : String
  deriving DecidableEq

/-- The query at the end of a text, if there is one, and what stands before it. -/
def splitQuery? (cs : List Char) : Option (List Char × Query) :=
  match splitOnce? '?' cs with
  | some (front, query) => (readQuery? query).map (front, ·)
  | none => some (cs, [])

/-- The credential and the address. A credential that does not stand before the address is a setting. -/
def splitUserInfo? (scheme : String) (query : Query) (cs : List Char) : Option (List String × List Char) :=
  match splitOnce? '@' cs with
  | some (userInfo, address) => (readUserInfo? scheme userInfo).map (·, address)
  | none => some ((query.filter (·.1 == "auth")).map (·.2), cs)

/-- The part of a link after its scheme. -/
def readAddressed? (scheme : String) (cs : List Char) : Option Reading := do
  let (front, fragment) ← splitOnce? '#' cs
  let name ← percentDecode? (String.ofList fragment)
  let (front, query) ← splitQuery? front
  let (credential, address) ← splitUserInfo? scheme query front
  let (host, port) ← readAuthority? (address.takeWhile (· != '/'))
  return { scheme, credential, host, port, query, name }

/-- The names of what an object says of the server itself. -/
def serverKeys : List String := ["add", "id", "port", "ps"]

/-- An object of texts in base64. -/
def readObject? (scheme : String) (cs : List Char) : Option Reading := do
  let text ← textOf? (← Base64.standard.decode? cs)
  let fields ← (← Json.parse? text).obj?
  let texts ← fields.mapM fun (key, v) => v.str?.map (key, ·)
  let value? (key : String) := (texts.find? (·.1 == key)).map (·.2)
  let port ← Text.digitsOf? (← value? "port").toList
  return { scheme, credential := [← value? "id"], host := ← value? "add", port,
           query := texts.filter fun e => !serverKeys.contains e.1, name := ← value? "ps" }

/-- The scheme of a link, and the rest of it. -/
def splitScheme? (cs : List Char) : Option (String × List Char) :=
  match splitOnce? ':' cs with
  | some (scheme, '/' :: '/' :: rest) => some (String.ofList scheme, rest)
  | _ => none

/-- Reads a link. -/
def read? (link : String) : Option Reading := do
  let (scheme, rest) ← splitScheme? link.toList
  if scheme = "vmess" then readObject? scheme rest else readAddressed? scheme rest

/-! ## What there is to read -/

/-- The settings of a link: those of its query, or those that the object inside it has of the stream. -/
def settingsOf (params : Params) : Query :=
  match params with
  | .vmess p =>
    let tls := params.tls?
    let network := networkOf p.transport
    let path := if network = .grpc then p.transport.bind (·.serviceName) else p.transport.bind (·.path)
    [("aid", toString p.alterId), ("alpn", (tls.map fun t => ",".intercalate t.alpn).getD ""),
      ("fp", ((tls.bind (·.utls)).map (·.fingerprint)).getD ""),
      ("host", (p.transport.bind (·.firstHost?)).getD ""), ("net", network.name), ("path", path.getD ""),
      ("scy", p.security), ("sni", (tls.bind (·.serverName)).getD ""),
      ("tls", if tls.isSome then "tls" else ""), ("type", (p.transport.bind (·.headerType)).getD "none"),
      ("v", "2")]
  | params => queryOf params

/-- What there is to read of a server. -/
def readingOf (s : Server) : Reading :=
  { scheme := scheme s.params.protocol, credential := credentialOf s.params, host := s.host
    port := s.port.toNat, query := settingsOf s.params, name := s.name }

/-! ## Links -/

/-- The address of a link, with the slash that ends it where a plugin follows. -/
def addressPart (s : Server) : String :=
  Net.authority s.host s.port.toNat
  ++ if s.params.protocol = .shadowsocks ∧ !(queryOf s.params).isEmpty then "/" else ""

theorem colon_notMem_scheme (p : Protocol) : ':' ∉ (scheme p).toList := by
  cases p with
  | _ => decide

theorem toList_link {s : Server} (h : s.params.protocol ≠ .vmess) :
    (link s).toList = (scheme s.params.protocol).toList ++ ':' :: '/' :: '/' ::
      ((userInfo s.params).toList ++ (addressPart s).toList ++ (queryText (queryOf s.params)).toList ++
        '#' :: (percentEncode s.name).toList) := by
  obtain ⟨name, host, port, params⟩ := s
  cases params with
  | vmess p => exact absurd rfl h
  | _ =>
    simp only [link, addressPart, String.toList_append, List.append_assoc]
    rfl

theorem splitQuery?_queryText {q : Query} (h : Named q) {cs : List Char} (hcs : '?' ∉ cs) :
    splitQuery? (cs ++ (queryText q).toList) = some (cs, q) := by
  by_cases hne : q = []
  · subst hne
    have hempty : cs ++ (queryText []).toList = cs := List.append_nil cs
    rw [splitQuery?, hempty, Text.splitOnce?_eq_none hcs]
  · have htext : (queryText q).toList = '?' :: ("&".intercalate (q.map piece)).toList := by
      rw [queryText_of_ne_nil hne, String.toList_append]
      rfl
    have hread := readQuery?_pieces hne h
    rw [splitQuery?, htext, Text.splitOnce?_of_notMem hcs]
    dsimp only
    rw [hread, Option.map_some]

section Link

variable {s : Server} (hhost : Net.isHost s.host = true) (hshare : Shareable s.params)

include hhost

theorem notMem_addressPart {c : Char} (hc : Delimiter c) (hslash : c ≠ '/') : c ∉ (addressPart s).toList := by
  have hauthority := hc.notMem_authority hhost s.port.toNat
  rw [addressPart, String.toList_append, List.mem_append, not_or]
  refine ⟨hauthority, ?_⟩
  split_ifs
  · simpa using hslash
  · simp

theorem readAuthority?_addressPart :
    readAuthority? ((addressPart s).toList.takeWhile (· != '/')) = some (s.host, s.port.toNat) := by
  have hauthority : ∀ c ∈ (Net.authority s.host s.port.toNat).toList, (c != '/') = true := fun c hc => by
    have hne : c ≠ '/' := fun heq => delimiter_slash.notMem_authority hhost s.port.toNat (heq ▸ hc)
    simpa using hne
  have hslash : ∀ p : Prop, [Decidable p] → ((if p then "/" else "").toList.takeWhile (· != '/')) = [] := by
    intro p _
    split_ifs
    · rfl
    · rfl
  rw [addressPart, String.toList_append, List.takeWhile_append_of_pos hauthority, hslash, List.append_nil]
  exact readAuthority?_authority hhost _

include hshare

theorem splitUserInfo?_userInfo (hprotocol : s.params.protocol ≠ .vmess) :
    splitUserInfo? (scheme s.params.protocol) (queryOf s.params)
      ((userInfo s.params).toList ++ (addressPart s).toList) =
      some (credentialOf s.params, (addressPart s).toList) := by
  rw [userInfo_eq, splitUserInfo?]
  cases hpart : userPart? s.params with
  | some userPart =>
    have hsplit : splitOnce? '@' ((userPart ++ "@").toList ++ (addressPart s).toList) =
        some (userPart.toList, (addressPart s).toList) := by
      rw [String.toList_append, List.append_assoc]
      exact Text.splitOnce?_of_notMem (delimiter_at.notMem_userPart hshare hpart) _
    simp only [Option.map_some, Option.getD_some]
    rw [hsplit]
    simp only [readUserInfo?_userPart hshare hpart, Option.map_some]
  | none =>
    -- the credential is a setting
    have hsplit : splitOnce? '@' ("".toList ++ (addressPart s).toList) = none :=
      Text.splitOnce?_eq_none (notMem_addressPart hhost delimiter_at (by decide))
    simp only [Option.map_none, Option.getD_none]
    rw [hsplit]
    cases hparams : s.params with
    | hysteria p =>
      rw [auth_queryOf_hysteria, credentialOf]
      rfl
    | vmess p => exact absurd (by rw [hparams]; rfl) hprotocol
    | _ => simp [hparams, userPart?] at hpart

theorem notMem_front {c : Char} (hc : Delimiter c) (hmarks : c ∉ ['/', '@', '?', '&', '=']) :
    c ∉ (userInfo s.params).toList ++ (addressPart s).toList ++ (queryText (queryOf s.params)).toList := by
  simp only [List.mem_cons, List.not_mem_nil, or_false, not_or] at hmarks
  rw [List.mem_append, List.mem_append, not_or, not_or]
  refine ⟨⟨hc.notMem_userInfo hmarks.2.1 hshare, notMem_addressPart hhost hc hmarks.1⟩, ?_⟩
  exact hc.notMem_queryText (by simp [hmarks]) (named_queryOf s.params)

theorem readAddressed?_link (hprotocol : s.params.protocol ≠ .vmess) :
    readAddressed? (scheme s.params.protocol)
      ((userInfo s.params).toList ++ (addressPart s).toList ++ (queryText (queryOf s.params)).toList ++
        '#' :: (percentEncode s.name).toList) = some (readingOf s) := by
  have hquestion : '?' ∉ (userInfo s.params).toList ++ (addressPart s).toList := by
    rw [List.mem_append, not_or]
    exact ⟨delimiter_question.notMem_userInfo (by decide) hshare,
      notMem_addressPart hhost delimiter_question (by decide)⟩
  have hsettings : settingsOf s.params = queryOf s.params := by
    cases hparams : s.params with
    | vmess p => exact absurd (by rw [hparams]; rfl) hprotocol
    | _ => rfl
  rw [readAddressed?, Text.splitOnce?_of_notMem (notMem_front hhost hshare delimiter_hash (by decide))]
  simp only [Option.bind_eq_bind, Option.bind_some, String.ofList_toList, Text.percentDecode?_percentEncode,
    splitQuery?_queryText (named_queryOf s.params) hquestion, splitUserInfo?_userInfo hhost hshare hprotocol,
    readAuthority?_addressPart hhost, readingOf, hsettings]
  rfl

theorem read?_link_of_addressed (hprotocol : s.params.protocol ≠ .vmess) :
    read? (link s) = some (readingOf s) := by
  have hscheme : scheme s.params.protocol ≠ "vmess" := by
    cases hparams : s.params.protocol with
    | vmess => exact absurd hparams hprotocol
    | _ => decide
  have hsplit : splitScheme? (link s).toList = some (scheme s.params.protocol,
      (userInfo s.params).toList ++ (addressPart s).toList ++ (queryText (queryOf s.params)).toList ++
        '#' :: (percentEncode s.name).toList) := by
    rw [splitScheme?, toList_link hprotocol, Text.splitOnce?_of_notMem (colon_notMem_scheme _)]
    simp
  rw [read?, hsplit]
  simp only [Option.bind_eq_bind, Option.bind_some, if_neg hscheme]
  exact readAddressed?_link hhost hshare hprotocol

end Link

section Object

variable {s : Server} {p : Vmess}

theorem legible_vmessBody (s : Server) (p : Vmess) : Json.Legible Json.maxDepth (vmessBody s p) := by
  simp [Json.maxDepth, vmessBody, Json.Legible]

/-- The fields of the object are in order. -/
theorem sorted_vmessBody (s : Server) (p : Vmess) : (vmessBody s p).sorted = vmessBody s p := by
  have hnames : ["add", "aid", "alpn", "fp", "host", "id", "net", "path", "port", "ps", "scy", "sni", "tls",
      "type", "v"].Pairwise (· < ·) := by decide
  rw [vmessBody, Json.sorted_obj]
  simp only [List.map_cons, List.map_nil, Json.sorted_str]
  exact congrArg Json.obj (Keyed.sort_eq_self (List.pairwise_map.1 hnames))

theorem readObject?_vmessBody (hp : s.params = .vmess p) :
    readObject? "vmess" (Base64.standard.text (Text.utf8 (vmessBody s p).compact)).toList =
      some (readingOf s) := by
  have hparse : Json.parse? (vmessBody s p).compact = some (vmessBody s p) := by
    rw [(legible_vmessBody s p).faithful.2, sorted_vmessBody]
  have hport : (toString s.port).toList = Nat.toDigits 10 s.port.toNat := Nat.toList_repr
  simp only [readObject?, Base64.decode?_text Base64.lawful_standard, textOf?_utf8, hparse, Option.bind_eq_bind,
    Option.bind_some]
  simp [vmessBody, Json.obj?, Json.str?, hport, digitsOf?_toDigits, serverKeys, readingOf, hp, settingsOf,
    credentialOf, Params.protocol, scheme, Protocol.name]

theorem read?_link_of_object (hp : s.params = .vmess p) : read? (link s) = some (readingOf s) := by
  have hlink : (link s).toList = "vmess".toList ++ ':' :: '/' :: '/' ::
      (Base64.standard.text (Text.utf8 (vmessBody s p).compact)).toList := by
    simp only [link, hp, String.toList_append]
    rfl
  have hsplit : splitScheme? (link s).toList = some ("vmess",
      (Base64.standard.text (Text.utf8 (vmessBody s p).compact)).toList) := by
    rw [splitScheme?, hlink, Text.splitOnce?_of_notMem (by decide)]
    simp
  rw [read?, hsplit]
  simp only [Option.bind_eq_bind, Option.bind_some, if_true]
  exact readObject?_vmessBody hp

end Object

/-- A link is read as the server. -/
theorem read?_link {s : Server} (hhost : Net.isHost s.host = true) (hshare : Shareable s.params) :
    read? (link s) = some (readingOf s) := by
  cases hp : s.params with
  | vmess p => exact read?_link_of_object hp
  | _ => exact read?_link_of_addressed hhost hshare (by simp [hp, Params.protocol])

theorem newline_notMem_link {s : Server} (hhost : Net.isHost s.host = true) (hshare : Shareable s.params) :
    '\n' ∉ (link s).toList := by
  by_cases hprotocol : s.params.protocol = .vmess
  · obtain ⟨p, hp⟩ : ∃ p, s.params = .vmess p := by
      cases hp : s.params with
      | vmess p => exact ⟨p, rfl⟩
      | _ => simp [hp, Params.protocol] at hprotocol
    have hbody := notMem_text Base64.lawful_standard (show ¬Base64.standard.Known '\n' by decide)
      (Text.utf8 (vmessBody s p).compact)
    simp only [link, hp, String.toList_append, List.mem_append, not_or]
    exact ⟨by decide, hbody⟩
  · have hscheme : '\n' ∉ (scheme s.params.protocol).toList := by
      cases s.params.protocol with
      | _ => decide
    have hfront := notMem_front hhost hshare delimiter_newline (by decide)
    have hname := notMem_percentEncode (show isEncoded '\n' = false by decide) s.name
    rw [toList_link hprotocol]
    simp only [List.mem_append, List.mem_cons, not_or] at hfront ⊢
    exact ⟨hscheme, by decide, by decide, by decide, hfront, by decide, hname⟩

/-! ## Bundles -/

theorem shareable_forUser {s : Server} {protocol : String} {raw : JsonFields}
    (h : Params.parse protocol raw = .ok s.params) {uuid : String} (huuid : Text.isUuid uuid = true) :
    Shareable (s.forUser uuid).params := by
  have hnormal := (Params.parse_yields_normal protocol raw s.params h).1
  rw [Server.forUser]
  cases hparams : s.params with
  | shadowsocks p =>
    rw [hparams] at hnormal
    exact hnormal.1
  | vless p | tuic p => exact huuid
  | _ => trivial

/-- A shadowsocks server with a plugin, and a vless server over a websocket. -/
def sampleServers : List Server :=
  [⟨"β #1", "::1", 8388,
      .shadowsocks ⟨"aes-128-gcm", "secret", some "obfs-local", some "obfs=http;obfs-host=a b"⟩⟩,
    ⟨"γ", "example.com", 443, .vless ⟨"b831381d-6324-4d53-ad4f-8cda48b30811", "", "none", "xudp", none,
      some { network := .ws, path := some "/?a=b&c" }⟩⟩]

/-- The uuid of a user. -/
def sampleUuid : String := "aaaaaaaa-0000-4000-8000-000000000001"

end ProxyFleet.Subscription.ShareLink

import ProxyFleet.Proofs.Json.Text
import ProxyFleet.Proofs.Net.Host
import ProxyFleet.Proofs.Protocol.UserKey
import ProxyFleet.Proofs.Text.Percent
import ProxyFleet.Proofs.Text.Split
import ProxyFleet.Subscription.ShareLink
import ProxyFleet.Text.Decimal

/-!
# The parts of a share link are read as they were written

A link puts a credential, an address, settings and a name one after the other, with delimiters between
them. No delimiter is in any of these parts: names and values are percent encoded, the other texts are
made of letters and digits.

* `readAuthority?`, `readQuery?`, `readUserInfo?` : readers of an address, of settings and of a credential;
* `Delimiter` : a character that is in no part;
* `readAuthority?_authority`, `readQuery?_pieces`, `readUserInfo?_userPart` : each reader reads what a link has.
-/

namespace ProxyFleet.Subscription.ShareLink

set_option autoImplicit false

open Text (splitOnce? splitChars percentEncode percentDecode? isEncoded)

/-! ## Readers -/

/-- The text of bytes in UTF-8. -/
def textOf? (bytes : List UInt8) : Option String := String.fromUTF8? ⟨bytes.toArray⟩

/-- The host and the port of an address; a host in brackets is had without them. -/
def readAuthority? : List Char → Option (String × Nat)
  | '[' :: cs => do
    let (host, rest) ← splitOnce? ']' cs
    let (_, port) ← splitOnce? ':' rest
    return (String.ofList host, ← Text.digitsOf? port)
  | cs => do
    let (host, port) ← splitOnce? ':' cs
    return (String.ofList host, ← Text.digitsOf? port)

/-- A setting of a query. -/
def readSetting? (cs : List Char) : Option (String × String) := do
  let (key, value) ← splitOnce? '=' cs
  return (String.ofList key, ← percentDecode? (String.ofList value))

/-- The settings of a query. -/
def readQuery? (cs : List Char) : Option Query := (splitChars '&' cs).mapM readSetting?

/-- The credential before an address: one text or two in percent encoding, or, for `ss` without a colon,
both in base64. -/
def readUserInfo? (scheme : String) (cs : List Char) : Option (List String) :=
  match splitOnce? ':' cs with
  | some (user, secret) => do
    return [← percentDecode? (String.ofList user), ← percentDecode? (String.ofList secret)]
  | none =>
    if scheme = "ss" then do
      let text ← textOf? (← Base64.urlSafe.decode? cs)
      let (method, password) ← splitOnce? ':' text.toList
      return [String.ofList method, String.ofList password]
    else do return [← percentDecode? (String.ofList cs)]

/-! ## Delimiters -/

/-- A character that is in none of the parts of a link. -/
structure Delimiter (c : Char) : Prop where
  encoded : isEncoded c = false
  host : Net.isHostChar c = false
  base64 : ¬Base64.urlSafe.Known c
  bracket : c ∉ [':', '[', ']']

instance (a : Base64) (c : Char) : Decidable (a.Known c) := inferInstanceAs (Decidable (_ ∨ _))

theorem delimiter_hash : Delimiter '#' := ⟨by decide, by decide, by decide, by decide⟩

theorem delimiter_question : Delimiter '?' := ⟨by decide, by decide, by decide, by decide⟩

theorem delimiter_at : Delimiter '@' := ⟨by decide, by decide, by decide, by decide⟩

theorem delimiter_slash : Delimiter '/' := ⟨by decide, by decide, by decide, by decide⟩

theorem delimiter_newline : Delimiter '\n' := ⟨by decide, by decide, by decide, by decide⟩

theorem notMem_percentEncode {c : Char} (h : isEncoded c = false) (s : String) : c ∉ (percentEncode s).toList :=
  fun hc => Bool.false_ne_true (h.symm.trans (Text.isEncoded_of_mem_percentEncode hc))

theorem notMem_text {a : Base64} (ha : a.Lawful) {c : Char} (h : ¬a.Known c) (bytes : List UInt8) :
    c ∉ (a.text bytes).toList :=
  fun hc => h (Base64.known_of_decode?_eq_some (Base64.decode?_text ha bytes) c hc)

/-! ## Addresses -/

theorem digitsOf?_toDigits (n : Nat) : Text.digitsOf? (Nat.toDigits 10 n) = some n := by
  have hdigits : (Nat.toDigits 10 n).all Char.isDigit = true :=
    List.all_eq_true.2 fun _ hc => isDigit_of_mem_toDigits hc
  have hne : (Nat.toDigits 10 n).isEmpty = false := by simp [Nat.toDigits_ne_nil]
  have hvalue : Nat.ofDigitChars 10 (Nat.toDigits 10 n) 0 = n := Nat.ofDigitChars_ten_toDigits
  rw [Nat.ofDigitChars_eq_foldl] at hvalue
  rw [Text.digitsOf?, hne, hdigits]
  simp only [Bool.not_true, Bool.or_false, Bool.false_eq_true, if_false, Nat.mul_comm _ 10, hvalue]

section Address

variable {host : String} (h : Net.isHost host = true) (port : Nat)

include h

theorem notMem_host {c : Char} (hc : Net.isHostChar c = false) : c ∉ host.toList :=
  fun hmem => Bool.false_ne_true (hc.symm.trans (Net.isHostChar_of_isHost h c hmem))

theorem toList_authority :
    (Net.authority host port).toList =
      if ':' ∈ host.toList then '[' :: host.toList ++ ']' :: ':' :: Nat.toDigits 10 port
      else host.toList ++ ':' :: Nat.toDigits 10 port := by
  have hbracket : host.toList.head? ≠ some '[' := fun hhead =>
    notMem_host h (by decide) (List.mem_of_head? hhead)
  unfold Net.authority
  by_cases hcolon : ':' ∈ host.toList
  · simp [hcolon, hbracket]
    rfl
  · simp [hcolon]
    rfl

theorem readAuthority?_authority : readAuthority? (Net.authority host port).toList = some (host, port) := by
  rw [toList_authority h]
  split_ifs with hcolon
  · rw [List.cons_append, readAuthority?, Text.splitOnce?_of_notMem (notMem_host h (by decide))]
    simp [splitOnce?, digitsOf?_toDigits]
  · -- a host without a colon is not taken for one in brackets
    have hbracket : ∀ rest, host.toList ++ ':' :: Nat.toDigits 10 port ≠ '[' :: rest := by
      intro rest heq
      cases hhost : host.toList with
      | nil => simp [hhost] at heq
      | cons c cs =>
        rw [hhost, List.cons_append] at heq
        obtain rfl : c = '[' := (List.cons.inj heq).1
        exact notMem_host h (show Net.isHostChar '[' = false by decide) (hhost ▸ List.mem_cons_self)
    rw [readAuthority?, Text.splitOnce?_of_notMem hcolon]
    · simp [digitsOf?_toDigits]
    · exact hbracket

theorem Delimiter.notMem_authority {c : Char} (hc : Delimiter c) : c ∉ (Net.authority host port).toList := by
  have hdigit : c ∉ Nat.toDigits 10 port := fun hmem =>
    Bool.false_ne_true (hc.host.symm.trans (Net.isHostChar_of_isDigit (isDigit_of_mem_toDigits hmem)))
  have hbracket := hc.bracket
  simp only [List.mem_cons, List.not_mem_nil, or_false, not_or] at hbracket
  rw [toList_authority h]
  split_ifs
  · simp [notMem_host h hc.host, hdigit, hbracket]
  · simp [notMem_host h hc.host, hdigit, hbracket]

end Address

/-! ## Queries -/

/-- One setting of a link. -/
def piece (e : String × String) : String := e.1 ++ "=" ++ percentEncode e.2

theorem toList_piece (e : String × String) :
    (piece e).toList = e.1.toList ++ '=' :: (percentEncode e.2).toList := by
  rw [piece, String.toList_append, String.toList_append, List.append_assoc]
  rfl

/-- The names of settings. -/
def settingNames : List String :=
  ["alpn", "allowInsecure", "allow_insecure", "auth", "congestion_control", "downmbps", "encryption", "flow",
   "fp", "headerType", "host", "insecure", "obfs", "obfs-password", "obfsParam", "path", "pbk", "peer", "plugin",
   "protocol", "quicSecurity", "security", "serviceName", "sid", "sni", "type", "udp_relay_mode", "upmbps"]

/-- The settings have names of the list. -/
def Named (q : Query) : Prop := ∀ e ∈ q, e.1 ∈ settingNames

theorem Named.notMem {q : Query} (h : Named q) {e : String × String} (he : e ∈ q) {c : Char}
    (hc : isEncoded c = false) : c ∉ e.1.toList := by
  have hall : ∀ name ∈ settingNames, name.toList.all isEncoded = true := by decide
  exact fun hmem => Bool.false_ne_true (hc.symm.trans (List.all_eq_true.1 (hall e.1 (h e he)) c hmem))

theorem readSetting?_piece {e : String × String} (h : '=' ∉ e.1.toList) :
    readSetting? (piece e).toList = some e := by
  rw [readSetting?, toList_piece, Text.splitOnce?_of_notMem h]
  simp [Text.percentDecode?_percentEncode]

theorem toList_pieces (q : Query) :
    ("&".intercalate (q.map piece)).toList = ['&'].intercalate (q.map fun e => (piece e).toList) := by
  rw [String.toList_intercalate, List.map_map]
  rfl

theorem readQuery?_pieces {q : Query} (hne : q ≠ []) (h : Named q) :
    readQuery? ("&".intercalate (q.map piece)).toList = some q := by
  have hamp : ∀ cs ∈ q.map fun e => (piece e).toList, '&' ∉ cs := by
    refine List.forall_mem_map.2 fun e he => ?_
    have hencoded : isEncoded '&' = false := by decide
    rw [toList_piece]
    simp [h.notMem he hencoded, notMem_percentEncode hencoded]
  have hread : ∀ e ∈ q, (readSetting? ∘ fun e => (piece e).toList) e = some (id e) :=
    fun e he => readSetting?_piece (h.notMem he (by decide))
  rw [readQuery?, toList_pieces, Text.splitChars_intercalate (by simpa using hne) hamp, List.mapM_map,
    Text.mapM_eq_some hread, List.map_id]

theorem queryText_of_ne_nil {q : Query} (h : q ≠ []) : queryText q = "?" ++ "&".intercalate (q.map piece) :=
  if_neg (by simpa using h)

section Named

variable {key value : String} {q q' : Query}

theorem named_nil : Named [] := by simp [Named]

theorem Named.cons (hkey : key ∈ settingNames) (h : Named q) : Named ((key, value) :: q) :=
  List.forall_mem_cons.2 ⟨hkey, h⟩

theorem Named.append (h : Named q) (h' : Named q') : Named (q ++ q') := List.forall_mem_append.2 ⟨h, h'⟩

theorem named_unless {p : Prop} [Decidable p] (h : Named q) : Named (if p then [] else q) := by
  split_ifs
  · exact named_nil
  · exact h

theorem fst_of_mem_setting? {value : Option String} {e : String × String} (h : e ∈ setting? key value) :
    e.1 = key := by
  obtain ⟨v, -, rfl⟩ := Option.map_eq_some_iff.1 (Option.mem_toList.1 h)
  rfl

theorem fst_of_mem_alpnQuery {tls : Tls} {e : String × String} (h : e ∈ alpnQuery tls) : e.1 = "alpn" := by
  unfold alpnQuery at h
  split_ifs at h
  · cases h
  · rw [List.mem_singleton.1 h]

theorem fst_of_mem_insecureQuery {tls : Tls} {e : String × String} (h : e ∈ insecureQuery key tls) :
    e.1 = key := by
  unfold insecureQuery at h
  split_ifs at h
  · rw [List.mem_singleton.1 h]
  · cases h

theorem named_setting? (hkey : key ∈ settingNames) (value : Option String) : Named (setting? key value) :=
  fun _ he => (fst_of_mem_setting? he).symm ▸ hkey

theorem named_alpnQuery (tls : Tls) : Named (alpnQuery tls) :=
  fun _ he => (fst_of_mem_alpnQuery he).symm ▸ (by decide)

theorem named_insecureQuery (hkey : key ∈ settingNames) (tls : Tls) : Named (insecureQuery key tls) :=
  fun _ he => (fst_of_mem_insecureQuery he).symm ▸ hkey

theorem named_tlsQuery (tls : Option Tls) : Named (tlsQuery tls) := by
  cases tls with
  | none => exact named_nil.cons (by decide)
  | some tls =>
    have hfingerprint := named_setting? (show "fp" ∈ settingNames by decide)
      ((tls.utls.filter (·.enabled)).map (·.fingerprint))
    have hname : Named (("security", if tls.reality?.isSome then "reality" else "tls") ::
        setting? "sni" tls.serverName) := (named_setting? (by decide) _).cons (by decide)
    refine (((hname.append hfingerprint).append (named_alpnQuery tls)).append ?_).append
      (named_insecureQuery (by decide) tls)
    split
    · exact (named_unless (named_nil.cons (by decide))).cons (by decide)
    · exact named_nil

theorem named_transportQuery (t : Transport) : Named (transportQuery t) := by
  have hpath : Named (setting? "path" t.path) := named_setting? (by decide) _
  have hhost : Named (setting? "host" t.firstHost?) := named_setting? (by decide) _
  unfold transportQuery
  cases t.network with
  | ws | h2 => exact hpath.append hhost
  | grpc | quic => exact named_setting? (by decide) _
  | tcp => exact ((named_setting? (by decide) _).append hpath).append hhost

theorem named_streamQuery (tls : Option Tls) (transport : Option Transport) :
    Named (streamQuery tls transport) := by
  refine ((named_tlsQuery tls).cons (by decide)).append ?_
  cases transport with
  | none => exact named_nil
  | some t => exact named_transportQuery t

theorem named_queryOf (params : Params) : Named (queryOf params) := by
  cases params with
  | shadowsocks p =>
    unfold queryOf
    dsimp only
    split
    · exact named_nil.cons (by decide)
    · exact named_nil
  | vmess p => exact named_nil
  | vless p =>
    have hflow : Named (if p.flow.isEmpty then [] else [("flow", p.flow)]) :=
      named_unless (named_nil.cons (by decide))
    exact ((named_streamQuery _ p.transport).cons (by decide)).append hflow
  | trojan p => exact named_streamQuery _ p.transport
  | hysteria p =>
    have hfirst : Named [("protocol", "udp"), ("auth", p.password)] :=
      (named_nil.cons (by decide)).cons (by decide)
    have hspeed : Named [("upmbps", toString p.upMbps), ("downmbps", toString p.downMbps)] :=
      (named_nil.cons (by decide)).cons (by decide)
    have hpeer := hfirst.append (named_setting? (show "peer" ∈ settingNames by decide) p.tls.serverName)
    have hobfs := named_setting? (show "obfsParam" ∈ settingNames by decide) p.obfs
    exact (((hpeer.append hspeed).append hobfs).append (named_alpnQuery p.tls)).append
      (named_insecureQuery (by decide) p.tls)
  | hysteria2 p =>
    refine ((named_setting? (by decide) p.tls.serverName).append ?_).append
      (named_insecureQuery (by decide) p.tls)
    split
    · exact (named_nil.cons (by decide)).cons (by decide)
    · exact named_nil
  | tuic p =>
    have hmodes : Named [("congestion_control", p.congestionControl), ("udp_relay_mode", p.udpRelayMode)] :=
      (named_nil.cons (by decide)).cons (by decide)
    have hname := (named_setting? (show "sni" ∈ settingNames by decide) p.tls.serverName).append hmodes
    exact (hname.append (named_alpnQuery p.tls)).append (named_insecureQuery (by decide) p.tls)
  | anytls p => exact (named_setting? (by decide) _).append (named_insecureQuery (by decide) p.tls)

end Named

theorem Delimiter.notMem_queryText {c : Char} (hc : Delimiter c) (hmarks : c ∉ ['?', '&', '=']) {q : Query}
    (h : Named q) : c ∉ (queryText q).toList := by
  simp only [List.mem_cons, List.not_mem_nil, or_false, not_or] at hmarks
  by_cases hne : q = []
  · simp [hne, queryText]
  · have hpieces : c ∉ ("&".intercalate (q.map piece)).toList := by
      rw [toList_pieces]
      refine Text.notMem_intercalate hmarks.2.1 (List.forall_mem_map.2 fun e he => ?_)
      rw [toList_piece]
      simp [h.notMem he hc.encoded, notMem_percentEncode hc.encoded, hmarks]
    rw [queryText_of_ne_nil hne, String.toList_append, List.mem_append, not_or]
    exact ⟨by simpa using hmarks.1, hpieces⟩

/-- A credential that does not stand before the address is a setting. -/
theorem auth_queryOf_hysteria (p : Hysteria) :
    ((queryOf (.hysteria p)).filter (·.1 == "auth")).map (·.2) = [p.password] := by
  have hnone : ∀ {q : Query} {key : String}, key ≠ "auth" → (∀ e ∈ q, e.1 = key) →
      q.filter (·.1 == "auth") = [] := fun hkey h =>
    List.filter_eq_nil_iff.2 fun e he => by simpa [h e he] using hkey
  have hpeer : (setting? "peer" p.tls.serverName).filter (·.1 == "auth") = [] :=
    hnone (by decide) fun _ => fst_of_mem_setting?
  have hobfs : (setting? "obfsParam" p.obfs).filter (·.1 == "auth") = [] :=
    hnone (by decide) fun _ => fst_of_mem_setting?
  have halpn : (alpnQuery p.tls).filter (·.1 == "auth") = [] := hnone (by decide) fun _ => fst_of_mem_alpnQuery
  have hinsecure : (insecureQuery "insecure" p.tls).filter (·.1 == "auth") = [] :=
    hnone (by decide) fun _ => fst_of_mem_insecureQuery
  simp only [queryOf, List.filter_append, hpeer, hobfs, halpn, hinsecure]
  rfl

/-! ## Credentials -/

/-- What identifies a user in a link. -/
def credentialOf : Params → List String
  | .shadowsocks p => [p.method, p.password]
  | .anytls p => [p.password]
  | .hysteria p => [p.password]
  | .hysteria2 p => [p.password]
  | .trojan p => [p.password]
  | .tuic p => [p.uuid, p.password]
  | .vless p => [p.uuid]
  | .vmess p => [p.uuid]

/-- What stands before the address, where anything does. -/
def userPart? : Params → Option String
  | .shadowsocks p => some <|
      if UserKey.isAead2022 p.method then percentEncode p.method ++ ":" ++ percentEncode p.password
      else Base64.urlSafe.text (Text.utf8 s!"{p.method}:{p.password}")
  | .vless p => some p.uuid
  | .trojan p => some (percentEncode p.password)
  | .hysteria2 p => some (percentEncode p.password)
  | .tuic p => some (p.uuid ++ ":" ++ percentEncode p.password)
  | .anytls p => some (percentEncode p.password)
  | .hysteria _ | .vmess _ => none

theorem userInfo_eq (params : Params) : userInfo params = ((userPart? params).map (· ++ "@")).getD "" := by
  cases params with
  | _ => rfl

/-- The texts in a link that are not encoded have no need to be. -/
def Shareable : Params → Prop
  | .shadowsocks p => p.method ∈ shadowsocksMethods
  | .tuic p => Text.isUuid p.uuid = true
  | .vless p => Text.isUuid p.uuid = true
  | _ => True

/-- A uuid is its own percent encoding. -/
theorem percentEncode_uuid {uuid : String} (h : Text.isUuid uuid = true) : percentEncode uuid = uuid := by
  simp only [Text.isUuid, Bool.and_eq_true, List.all_eq_true] at h
  refine Text.percentEncode_eq_self fun c hc => ?_
  rcases Text.eq_or_mem_splitChars '-' hc with rfl | ⟨group, hgroup, hmem⟩
  · exact ⟨by decide, by decide⟩
  · have halnum : c.isAlphanum = true := Net.isAlphanum_of_isHex (h.2 group hgroup c hmem)
    refine ⟨by simp [isEncoded, halnum], ?_⟩
    rintro rfl
    exact absurd halnum (by decide)

theorem textOf?_utf8 (s : String) : textOf? (Text.utf8 s) = some s := Text.fromUTF8?_utf8 s

theorem scheme_ne_ss {p : Protocol} (h : p ≠ .shadowsocks) : scheme p ≠ "ss" := by
  cases p with
  | shadowsocks => exact absurd rfl h
  | _ => decide

theorem readUserInfo?_one {scheme : String} (h : scheme ≠ "ss") (secret : String) :
    readUserInfo? scheme (percentEncode secret).toList = some [secret] := by
  rw [readUserInfo?, Text.splitOnce?_eq_none (notMem_percentEncode (by decide) secret)]
  simp [h, Text.percentDecode?_percentEncode]

theorem readUserInfo?_two (scheme user secret : String) :
    readUserInfo? scheme (percentEncode user ++ ":" ++ percentEncode secret).toList = some [user, secret] := by
  have hsplit : splitOnce? ':' (percentEncode user ++ ":" ++ percentEncode secret).toList =
      some ((percentEncode user).toList, (percentEncode secret).toList) := by
    rw [String.toList_append, String.toList_append, List.append_assoc]
    exact Text.splitOnce?_of_notMem (notMem_percentEncode (by decide) user) _
  rw [readUserInfo?, hsplit]
  simp [Text.percentDecode?_percentEncode]

theorem readUserInfo?_base64 {method : String} (h : method ∈ shadowsocksMethods) (password : String) :
    readUserInfo? "ss" (Base64.urlSafe.text (Text.utf8 s!"{method}:{password}")).toList =
      some [method, password] := by
  have hmethod : ':' ∉ method.toList := by
    revert h method
    decide
  have htext : (s!"{method}:{password}").toList = method.toList ++ ':' :: password.toList := by
    simp only [String.toList_append, List.append_assoc]
    rfl
  rw [readUserInfo?, Text.splitOnce?_eq_none (notMem_text Base64.lawful_urlSafe (by decide) _)]
  simp only [if_true, Base64.decode?_text Base64.lawful_urlSafe, textOf?_utf8, htext,
    Text.splitOnce?_of_notMem hmethod, Option.bind_eq_bind, Option.bind_some, String.ofList_toList]
  rfl

theorem readUserInfo?_userPart {params : Params} (h : Shareable params) {userPart : String}
    (hpart : userPart? params = some userPart) :
    readUserInfo? (scheme params.protocol) userPart.toList = some (credentialOf params) := by
  cases params with
  | shadowsocks p =>
    obtain rfl := Option.some.inj hpart
    split_ifs
    · exact readUserInfo?_two _ _ _
    · exact readUserInfo?_base64 h _
  | vless p =>
    obtain rfl := Option.some.inj hpart
    have hread := readUserInfo?_one (scheme_ne_ss (show Protocol.vless ≠ .shadowsocks by decide)) p.uuid
    rwa [percentEncode_uuid h] at hread
  | tuic p =>
    obtain rfl := Option.some.inj hpart
    have hread := readUserInfo?_two (scheme .tuic) p.uuid p.password
    rwa [percentEncode_uuid h] at hread
  | trojan p | hysteria2 p | anytls p =>
    obtain rfl := Option.some.inj hpart
    exact readUserInfo?_one (scheme_ne_ss (by simp [Params.protocol])) _
  | hysteria p | vmess p => cases hpart

theorem Delimiter.notMem_userPart {c : Char} (hc : Delimiter c) {params : Params} (h : Shareable params)
    {userPart : String} (hpart : userPart? params = some userPart) : c ∉ userPart.toList := by
  have hencode := notMem_percentEncode hc.encoded
  have hbracket := hc.bracket
  simp only [List.mem_cons, List.not_mem_nil, or_false, not_or] at hbracket
  cases params with
  | shadowsocks p =>
    obtain rfl := Option.some.inj hpart
    split_ifs
    · simp [hencode, hbracket]
    · exact notMem_text Base64.lawful_urlSafe hc.base64 _
  | vless p =>
    obtain rfl := Option.some.inj hpart
    exact percentEncode_uuid h ▸ hencode p.uuid
  | tuic p =>
    obtain rfl := Option.some.inj hpart
    have huuid := percentEncode_uuid h ▸ hencode p.uuid
    simp [hencode, huuid, hbracket]
  | trojan p | hysteria2 p | anytls p =>
    obtain rfl := Option.some.inj hpart
    exact hencode p.password
  | hysteria p | vmess p => cases hpart

theorem Delimiter.notMem_userInfo {c : Char} (hc : Delimiter c) (hat : c ≠ '@') {params : Params}
    (h : Shareable params) : c ∉ (userInfo params).toList := by
  rw [userInfo_eq]
  cases hpart : userPart? params with
  | none => simp
  | some userPart => simp [hc.notMem_userPart h hpart, hat]

end ProxyFleet.Subscription.ShareLink

import ProxyFleet.Proofs.Protocol.Accepted
import ProxyFleet.Proofs.Protocol.Canonical

/-!
# Raw parameters that were written as canonical ones

The readers of raw parameters find what a canonical form holds. A field that writing leaves out is
absent to them, and an empty text, which some of them take for absent, stands in no form of parameters
that were accepted.

* `Raw.text?_eq_ok`, `Raw.exists_text?`, `Raw.bandwidth?_eq_ok` and the like : single fields;
* `Raw.tls?_eq_ok`, `Raw.forcedTls_eq_ok` : TLS settings, from fields that stand only in the settings;
* `Raw.transport?_of_none` : there is no transport unless `network` names one.
-/

namespace ProxyFleet

set_option autoImplicit false

open Json (Holds)

namespace Raw

variable {p : Protocol} {raw : JsonFields} {key : String}

/-! ## Single fields -/

theorem requiredText_eq_ok {s : String} (h : Json.field? raw key = (some (.str s)).map Json.sorted) (hs : s ≠ "") :
    requiredText p raw key = .ok s := by
  rw [requiredText, given?, h, Option.map_some, Json.sorted_str]
  exact if_neg (by simpa using hs)

theorem text?_eq_ok {o : Option String} (h : Json.field? raw key = (o.map .str).map Json.sorted) :
    text? p raw key = .ok o := by
  rw [text?, given?, h]
  cases o with
  | none => rfl
  | some s => rw [Option.map_some, Option.map_some, Json.sorted_str]

theorem text?_of_some {s : String} (h : Json.field? raw key = (some (.str s)).map Json.sorted) :
    text? p raw key = .ok (some s) := text?_eq_ok (o := some s) h

theorem text?_of_none (h : Json.field? raw key = none) : text? p raw key = .ok none := text?_eq_ok (o := none) h

/-- A text that was left out where it was empty is absent, and else it is there. -/
theorem exists_text? {s : String} (h : Json.field? raw key = (Json.nonEmptyText s).map Json.sorted) :
    ∃ s?, text? p raw key = .ok s? ∧ s?.getD "" = s := by
  unfold Json.nonEmptyText at h
  split_ifs at h with hempty
  · exact ⟨none, text?_of_none h, (String.isEmpty_iff.1 hempty).symm⟩
  · exact ⟨some s, text?_of_some h, rfl⟩

theorem nonEmptyText?_eq_ok {o : Option String} (h : Json.field? raw key = (o.map .str).map Json.sorted)
    (hne : o ≠ some "") : nonEmptyText? p raw key = .ok o := by
  rw [nonEmptyText?, text?_eq_ok h]
  show Except.ok (o.filter _) = _
  cases o with
  | none => rfl
  | some s =>
    have hs : (!s.isEmpty) = true := by simpa using hne
    rw [Option.filter_some, if_pos hs]

theorem bool?_of_some {b : Bool} (h : Json.field? raw key = (some (.bool b)).map Json.sorted) :
    bool? p raw key = .ok (some b) := by
  rw [bool?, given?, h, Option.map_some, Json.sorted_bool]

theorem bool?_of_none (h : Json.field? raw key = none) : bool? p raw key = .ok none := by
  rw [bool?, given?, h]

theorem nat?_of_some {n : Nat} (h : Json.field? raw key = (some (.nat n)).map Json.sorted) :
    nat? p raw key = .ok (some n) := by
  have hnat : natOfNumber? (.int n) = some n := by simp [natOfNumber?]
  rw [nat?, given?, h, Option.map_some, Json.nat, Json.sorted_num]
  simp only [hnat]

theorem bandwidth?_eq_ok {o : Option UInt32} (h : Json.field? raw key = (o.map .u32).map Json.sorted) :
    bandwidth? p raw key = .ok o := by
  unfold bandwidth?
  cases o with
  | none =>
    have hnone : nat? p raw key = .ok none := by
      rw [nat?, given?, h]
      rfl
    rw [hnone]
    rfl
  | some n =>
    have hsome : nat? p raw key = .ok (some n.toNat) := nat?_of_some h
    have hlt : n.toNat < Nat.pow 2 32 := n.toNat_lt
    rw [hsome]
    show (if n.toNat < Nat.pow 2 32 then _ else _) = _
    rw [if_pos hlt, UInt32.ofNat_toNat]
    rfl

theorem bandwidth?_of_some {n : UInt32} (h : Json.field? raw key = (some (.u32 n)).map Json.sorted) :
    bandwidth? p raw key = .ok (some n) := bandwidth?_eq_ok (o := some n) h

theorem oneOf_eq_ok {value : String} {allowed : List String} (h : value ∈ allowed) :
    oneOf p key value allowed = .ok () := if_pos (List.contains_iff_mem.2 h)

theorem texts_strings (ss : List String) : texts p key (.strings ss) = .ok ss := by
  show (ss.map Json.str).mapM _ = _
  induction ss with
  | nil => rfl
  | cons s ss ih =>
    rw [List.map_cons, List.mapM_cons, ih]
    rfl

/-! ## TLS -/

/-- The names of TLS settings that may stand beside the `tls` field. -/
def besideTls : List String := ["server_name", "sni", "insecure", "allow_insecure", "alpn", "reality"]

/-- What a REALITY handshake is written as. -/
def realitySpecs (r : Reality) : List (String × Option Json) :=
  [("enabled", some (.bool r.enabled)), ("public_key", some (.str r.publicKey)),
    ("short_id", Json.nonEmptyText r.shortId)]

theorem reality?_eq_ok {tls : JsonFields} {r : Reality} (henabled : r.enabled = true) (hne : r.publicKey ≠ "")
    (h : Json.field? tls "reality" = some r.toJson.sorted) : reality? p tls raw = .ok (some r) := by
  have hnodup : ((realitySpecs r).map (·.1)).Nodup := by simp [realitySpecs]
  obtain ⟨fields, heq, hfields⟩ := Json.holds_record hnodup
  have hon : bool? p fields "enabled" = .ok (some r.enabled) :=
    bool?_of_some (hfields.field "enabled" _ (by simp [realitySpecs]))
  have hkey : Json.field? fields "public_key" = (some (.str r.publicKey)).map Json.sorted :=
    hfields.field "public_key" _ (by simp [realitySpecs])
  obtain ⟨id?, hid, hshort⟩ : ∃ s?, text? p fields "short_id" = .ok s? ∧ s?.getD "" = r.shortId :=
    exists_text? (hfields.field "short_id" (Json.nonEmptyText r.shortId) (by simp [realitySpecs]))
  have hkept : (some r.publicKey).filter (!·.isEmpty) = some r.publicKey := by simpa using hne
  have hform : r.toJson.sorted = .obj fields := heq
  rw [reality?, h, hform]
  simp only [Option.some_or, hon, hkey, hid, Option.map_some, Json.sorted_str, Option.bind_some, Json.str?, hkept,
    bind, Except.bind, pure, Except.pure, Option.getD_some, henabled, if_true, hshort]
  rw [← henabled]

/-- What the client is written as that a handshake imitates. -/
def utlsSpecs (u : Utls) : List (String × Option Json) :=
  [("enabled", some (.bool u.enabled)), ("fingerprint", some (.str u.fingerprint))]

/-- What TLS settings are written as. -/
def tlsSpecs (t : Tls) : List (String × Option Json) :=
  [("enabled", some (.bool t.enabled)), ("server_name", t.serverName.map .str),
    ("insecure", if t.insecure then some (.bool true) else none), ("alpn", Json.nonEmptyTexts t.alpn),
    ("utls", t.utls.map Utls.toJson), ("reality", t.reality.map Reality.toJson)]

section TlsFields

variable {use : TlsUse} {t : Tls} {fields : JsonFields} (h : Holds fields (tlsSpecs t) [])
  (hraw : ∀ key ∈ besideTls, Json.field? raw key = none)

include h

theorem tlsSection_eq_ok (hv : Json.field? raw "tls" = some (.obj fields)) (ht : t.enabled = true) :
    tlsSection p use raw = .ok (true, fields) := by
  have henabled : bool? p fields "enabled" = .ok (some t.enabled) :=
    bool?_of_some (h.field "enabled" _ (by simp [tlsSpecs]))
  rw [tlsSection, given?, hv]
  show (bool? p fields "enabled" >>= _) = _
  rw [henabled, ht]
  rfl

include hraw

theorem serverName_eq (hne : t.serverName ≠ some "") :
    firstText? [fields, raw] ["server_name", "sni"] = t.serverName := by
  have hhere : Json.field? fields "server_name" = (t.serverName.map .str).map Json.sorted :=
    h.field "server_name" _ (by simp [tlsSpecs])
  have hother : Json.field? fields "sni" = none := h.absent (by simp [tlsSpecs])
  have hbeside := hraw "server_name" (by simp [besideTls])
  have hbeside' := hraw "sni" (by simp [besideTls])
  cases hserver : t.serverName with
  | none => simp [firstText?, hhere, hother, hbeside, hbeside', hserver]
  | some s =>
    have hs : s ≠ "" := fun hempty => hne (by rw [hserver, hempty])
    simp [firstText?, hhere, hserver, Json.str?, hs]

theorem insecure_eq_ok : insecure p [fields, raw] = .ok t.insecure := by
  have hbeside : insecure p [raw] = .ok false := by
    rw [insecure, bool?_of_none (hraw "insecure" (by simp [besideTls])),
      bool?_of_none (hraw "allow_insecure" (by simp [besideTls]))]
    rfl
  have hhere : Json.field? fields "insecure" = (if t.insecure then some (.bool true) else none).map Json.sorted :=
    h.field "insecure" _ (by simp [tlsSpecs])
  have hother : Json.field? fields "allow_insecure" = none := h.absent (by simp [tlsSpecs])
  rw [insecure]
  cases ht : t.insecure with
  | true =>
    rw [ht] at hhere
    rw [bool?_of_some hhere]
    rfl
  | false =>
    -- it is not written where it is off, so that what stands beside the settings is asked, in vain
    rw [ht] at hhere
    rw [bool?_of_none hhere, bool?_of_none hother]
    exact hbeside

theorem alpn_eq_ok : alpn p raw fields = .ok t.alpn := by
  have hhere : Json.field? fields "alpn" = (Json.nonEmptyTexts t.alpn).map Json.sorted :=
    h.field "alpn" _ (by simp [tlsSpecs])
  rw [alpn, hhere, hraw "alpn" (by simp [besideTls])]
  cases t.alpn with
  | nil => rfl
  | cons s ss =>
    show texts p "alpn" (Json.strings (s :: ss)).sorted = _
    rw [Json.sorted_strings, texts_strings]

omit hraw in
theorem utls?_eq_ok (ht : t.Normal use) : utls? p raw use fields = .ok t.utls := by
  unfold utls?
  cases hutls : t.utls with
  | none =>
    have huse : use.utls = false := by rw [← ht.handshake, hutls, Option.isSome_none]
    rw [huse]
    rfl
  | some u =>
    have huse : use.utls = true := by rw [← ht.handshake, hutls, Option.isSome_some]
    obtain ⟨henabled, hlisted⟩ := ht.utls u hutls
    have hnodup : ((utlsSpecs u).map (·.1)).Nodup := by simp [utlsSpecs]
    obtain ⟨inner, hinner, hfields⟩ := Json.holds_record hnodup
    have hhere : Json.field? fields "utls" = some (.obj inner) := by
      rw [h.field "utls" (t.utls.map Utls.toJson) (by simp [tlsSpecs]), hutls, ← hinner]
      rfl
    have hprint : Json.field? inner "fingerprint" = (some (.str u.fingerprint)).map Json.sorted :=
      hfields.field "fingerprint" _ (by simp [utlsSpecs])
    have hname : fingerprint fields raw = u.fingerprint := by simp [fingerprint, hhere, Json.get?, hprint, Json.str?]
    rw [if_pos huse, hname, oneOf_eq_ok hlisted, ← henabled]
    rfl

theorem allowedReality?_eq_ok (ht : t.Normal use) : allowedReality? p raw use fields = .ok t.reality := by
  have hhere : Json.field? fields "reality" = (t.reality.map Reality.toJson).map Json.sorted :=
    h.field "reality" _ (by simp [tlsSpecs])
  unfold allowedReality?
  cases hr : t.reality with
  | none =>
    split_ifs
    · rw [reality?, hhere, hr, hraw "reality" (by simp [besideTls])]
      rfl
    · rfl
  | some r =>
    obtain ⟨huse, henabled, hne⟩ := ht.reality r hr
    rw [hr] at hhere
    rw [if_pos huse, reality?_eq_ok henabled hne hhere]

theorem tlsInForce_eq_ok (ht : t.Normal use) : tlsInForce p raw use fields = .ok t := by
  rw [tlsInForce, insecure_eq_ok h hraw, alpn_eq_ok h hraw, utls?_eq_ok h ht, allowedReality?_eq_ok h hraw ht,
    serverName_eq h hraw ht.serverName]
  show Except.ok { t with enabled := true } = _
  rw [← ht.enabled]

end TlsFields

/-- TLS settings that were accepted are read from what was written of them, if none stand beside them. -/
theorem tls?_eq_ok {use : TlsUse} {t : Tls} (ht : t.Normal use)
    (hv : Json.field? raw "tls" = (some t.toJson).map Json.sorted)
    (hraw : ∀ key ∈ besideTls, Json.field? raw key = none) : tls? p use raw = .ok (some t) := by
  have hnodup : ((tlsSpecs t).map (·.1)).Nodup := by simp [tlsSpecs]
  obtain ⟨fields, heq, hfields⟩ := Json.holds_record hnodup
  have hv : Json.field? raw "tls" = some (.obj fields) := by rw [hv, ← heq]; rfl
  rw [tls?_eq, tlsSection_eq_ok hfields hv ht.enabled]
  show some <$> tlsInForce p raw use fields = _
  rw [tlsInForce_eq_ok hfields hraw ht]
  rfl

/-- Where none were written TLS is off, unless the protocol does not do without. -/
theorem tls?_of_none {use : TlsUse} (huse : use.forced = false) (hv : Json.field? raw "tls" = none) :
    tls? p use raw = .ok none := by
  rw [tls?_eq, tlsSection, given?, hv]
  show (if use.forced = true then _ else _) = _
  rw [huse]
  rfl

theorem optionalTls_eq_ok {use : TlsUse} (huse : use.forced = false) {t? : Option Tls} (ht : ∀ t ∈ t?, t.Normal use)
    (hv : Json.field? raw "tls" = (t?.map Tls.toJson).map Json.sorted)
    (hraw : ∀ key ∈ besideTls, Json.field? raw key = none) : tls? p use raw = .ok t? := by
  cases t? with
  | none => exact tls?_of_none huse hv
  | some t => exact tls?_eq_ok (ht t rfl) hv hraw

theorem forcedTls_eq_ok {t : Tls} (ht : t.Normal { forced := true })
    (hv : Json.field? raw "tls" = (some t.toJson).map Json.sorted)
    (hraw : ∀ key ∈ besideTls, Json.field? raw key = none) : forcedTls p raw = .ok t := by
  rw [forcedTls, tls?_eq_ok ht hv hraw]
  rfl

theorem transport?_of_none (h : Json.field? raw "network" = none) : transport? p raw = .ok none := by
  rw [transport?, text?_of_none h]
  rfl

end Raw

end ProxyFleet

import ProxyFleet.Proofs.Json.Nulls
import ProxyFleet.Proofs.Protocol.Accepted

/-!
# Raw parameters that are null

* `Alike` : two readings that fail alike, or give related values;
* `Raw.given?_thinned` : what is given under a name when fields that are `null` are removed;
* `Raw.tls?_thinned`, `Raw.transport?_thinned` : TLS settings and the transport are read as before, unless a
  `null` stands before a value of the same meaning;
* `Raw.alpn_of_null`, `Raw.alpn_stripped` and the same for REALITY, `Raw.hosts_stripped` : what is read with
  such a `null`, and what without it.
-/

namespace ProxyFleet

set_option autoImplicit false

open Json (Thinned ThinnedField)

/-- Both readings fail alike, or what they give is related. -/
inductive Alike {ε α : Type} (R : α → α → Prop) : Except ε α → Except ε α → Prop where
  | error (e : ε) : Alike R (.error e) (.error e)
  | ok {a a' : α} (related : R a a') : Alike R (.ok a) (.ok a')

theorem Alike.same {ε α : Type} (x : Except ε α) : Alike Eq x x := by
  cases x with
  | error e => exact .error e
  | ok a => exact .ok rfl

theorem Alike.bind_eq {ε α β : Type} {R : α → α → Prop} {x x' : Except ε α} {f f' : α → Except ε β}
    (h : Alike R x x') (hf : ∀ a a', x = .ok a → R a a' → f' a' = f a) : x' >>= f' = x >>= f := by
  cases h with
  | error e => rfl
  | ok related => exact hf _ _ rfl related

namespace Raw

variable {p : Protocol} {raw raw' : JsonFields}

/-! ## Single fields -/

theorem given?_eq (raw : JsonFields) (key : String) : given? raw key = Json.given? (Json.field? raw key) := by
  unfold given?
  cases Json.field? raw key with
  | none => rfl
  | some v =>
    cases v with
    | _ => rfl

/-- What is given under a name stays, or is an object before and after. -/
theorem given?_thinned (h : Thinned (.obj raw) (.obj raw')) (key : String) :
    given? raw' key = given? raw key ∨ ∃ fields fields', given? raw key = some (.obj fields) ∧
      given? raw' key = some (.obj fields') ∧ Thinned (.obj fields) (.obj fields') := by
  have hfield := h.field key
  unfold given?
  generalize Json.field? raw key = v?, Json.field? raw' key = v?' at hfield
  cases hfield with
  | missing => exact .inl rfl
  | removed => exact .inl rfl
  | kept thinned =>
    rcases thinned.eq_or_object with rfl | ⟨fields, fields', rfl, rfl, hfields⟩
    · exact .inl rfl
    · exact .inr ⟨fields, fields', rfl, rfl, hfields⟩

section Fields

variable (h : Thinned (.obj raw) (.obj raw')) (key : String)

include h

theorem requiredText_thinned : requiredText p raw' key = requiredText p raw key := by
  unfold requiredText
  rcases given?_thinned h key with heq | ⟨fields, fields', hv, hv', -⟩
  · rw [heq]
  · rw [hv, hv']
    rfl

theorem text?_thinned : text? p raw' key = text? p raw key := by
  unfold text?
  rcases given?_thinned h key with heq | ⟨fields, fields', hv, hv', -⟩
  · rw [heq]
  · rw [hv, hv']
    rfl

theorem bool?_thinned : bool? p raw' key = bool? p raw key := by
  unfold bool?
  rcases given?_thinned h key with heq | ⟨fields, fields', hv, hv', -⟩
  · rw [heq]
  · rw [hv, hv']
    rfl

theorem nat?_thinned : nat? p raw' key = nat? p raw key := by
  unfold nat?
  rcases given?_thinned h key with heq | ⟨fields, fields', hv, hv', -⟩
  · rw [heq]
  · rw [hv, hv']
    rfl

theorem nonEmptyText?_thinned : nonEmptyText? p raw' key = nonEmptyText? p raw key := by
  rw [nonEmptyText?, text?_thinned h, nonEmptyText?]

theorem bandwidth?_thinned : bandwidth? p raw' key = bandwidth? p raw key := by
  rw [bandwidth?, nat?_thinned h, bandwidth?]

theorem object_thinned : Alike (fun fields fields' => Thinned (.obj fields) (.obj fields'))
    (object p raw key) (object p raw' key) := by
  unfold object
  rcases given?_thinned h key with heq | ⟨fields, fields', hv, hv', hfields⟩
  · rw [heq]
    split
    · exact .ok (.same _)
    · exact .ok (.same _)
    · exact .error _
  · rw [hv, hv']
    exact .ok hfields

end Fields

theorem firstText?_thinned {sources sources' : List JsonFields}
    (h : List.Forall₂ (fun fields fields' => Thinned (.obj fields) (.obj fields')) sources sources')
    (keys : List String) : firstText? sources' keys = firstText? sources keys := by
  unfold firstText?
  induction h with
  | nil => rfl
  | cons hfields _ ih =>
    rw [List.findSome?_cons, List.findSome?_cons, ih]
    simp only [(hfields.field _).str?]

theorem insecure_thinned {sources sources' : List JsonFields}
    (h : List.Forall₂ (fun fields fields' => Thinned (.obj fields) (.obj fields')) sources sources') :
    insecure p sources' = insecure p sources := by
  induction h with
  | nil => rfl
  | cons hfields _ ih => rw [insecure, bool?_thinned hfields, bool?_thinned hfields, ih, insecure]

/-! ## TLS -/

theorem tlsSection_thinned (use : TlsUse) (h : Thinned (.obj raw) (.obj raw')) :
    Alike (fun s s' => s'.1 = s.1 ∧ Thinned (.obj s.2) (.obj s'.2)) (tlsSection p use raw) (tlsSection p use raw') := by
  have hsame : ∀ x : Except ParamError (Bool × JsonFields),
      Alike (fun s s' => s'.1 = s.1 ∧ Thinned (.obj s.2) (.obj s'.2)) x x := by
    rintro (e | s)
    · exact .error e
    · exact .ok ⟨rfl, .same _⟩
  unfold tlsSection
  rcases given?_thinned h "tls" with heq | ⟨fields, fields', hv, hv', hfields⟩
  · rw [heq]
    exact hsame _
  · rw [hv, hv']
    dsimp only
    rw [bool?_thinned hfields]
    cases bool? p fields "enabled" with
    | error e => exact .error e
    | ok enabled => exact .ok ⟨rfl, hfields⟩

section Tls

variable {tls tls' : JsonFields} (htls : Thinned (.obj tls) (.obj tls')) (h : Thinned (.obj raw) (.obj raw'))

include htls h

theorem fingerprint_thinned : fingerprint tls' raw' = fingerprint tls raw := by
  have hinner := ((htls.field "utls").get? "fingerprint").str?
  have hbeside := firstText?_thinned (.cons htls (.cons h .nil)) ["fingerprint"]
  rw [fingerprint, hinner, hbeside, fingerprint]

theorem utls?_thinned (use : TlsUse) : utls? p raw' use tls' = utls? p raw use tls := by
  rw [utls?, fingerprint_thinned htls h, utls?]

end Tls

/-- The texts that stand in a place, where there is one. -/
def textsAt (p : Protocol) (key : String) : Option Json → Except ParamError (List String)
  | none => .ok []
  | some v => texts p key v

theorem hosts_eq (p : Protocol) : hosts p = textsAt p "network_settings.host" := by
  funext v?
  cases v? with
  | _ => rfl

theorem alpn_eq (p : Protocol) (raw tls : JsonFields) : alpn p raw tls =
    textsAt p "alpn" (Json.firstThere [Json.field? tls "alpn", Json.field? raw "alpn"]) := by
  rw [alpn, Json.firstThere_cons, Json.firstThere_cons]
  cases hv : (Json.field? tls "alpn").or (Json.field? raw "alpn") with
  | _ => simp [Json.firstThere, hv, textsAt, pure, Except.pure]

theorem alpn_beside (p : Protocol) (raw : JsonFields) : alpn p raw [] = textsAt p "alpn" (Json.field? raw "alpn") := by
  rw [alpn_eq]
  exact congrArg _ (Json.firstThere_pair_none _)

theorem textsAt_thinned {v v' : Json} (h : Thinned v v') (key : String) :
    textsAt p key (some v') = textsAt p key (some v) := by
  rcases h.eq_or_object with rfl | ⟨fields, fields', rfl, rfl, -⟩
  · rfl
  · rfl

/-- The REALITY settings that stand in a place, where there is one. -/
def realityAt (p : Protocol) (v? : Option Json) : Except ParamError (Option Reality) :=
  reality? p (v?.toList.map (("reality", ·))) []

theorem reality?_eq (p : Protocol) (raw tls : JsonFields) : reality? p tls raw =
    realityAt p (Json.firstThere [Json.field? tls "reality", Json.field? raw "reality"]) := by
  have hplace : ∀ v? : Option Json,
      (Json.field? (v?.toList.map (("reality", ·))) "reality").or (Json.field? [] "reality") = v? := by
    rintro (_ | v)
    · rfl
    · rfl
  have hfirst : Json.firstThere [Json.field? tls "reality", Json.field? raw "reality"] =
      (Json.field? tls "reality").or (Json.field? raw "reality") := by
    rw [Json.firstThere_cons, Json.firstThere_cons]
    exact congrArg _ (Option.or_none)
  rw [realityAt, reality?, reality?, hplace, hfirst]

theorem reality?_beside (p : Protocol) (raw : JsonFields) :
    reality? p [] raw = realityAt p (Json.field? raw "reality") := by
  rw [reality?_eq]
  exact congrArg _ (Json.firstThere_pair_none _)

theorem realityAt_thinned {v v' : Json} (h : Thinned v v') : realityAt p (some v') = realityAt p (some v) := by
  rcases h.eq_or_object with rfl | ⟨fields, fields', rfl, rfl, hfields⟩
  · rfl
  · have hkey := (hfields.field "public_key").str?
    show reality? p [("reality", .obj fields')] [] = reality? p [("reality", .obj fields)] []
    simp only [reality?, Json.field?, List.find?_cons, beq_self_eq_true, Option.map_some, Option.some_or]
    simp only [bool?_thinned hfields, text?_thinned hfields]
    unfold Json.field? at hkey
    rw [hkey]

/-! ## Transport -/

/-- Where the hosts of a websocket may stand: in a header under either name, or in a setting of their own. -/
def hostPlaces (settings : JsonFields) : List (Option Json) :=
  [(Json.field? settings "headers").bind (Json.get? · "Host"),
    (Json.field? settings "headers").bind (Json.get? · "host"), Json.field? settings "host"]

theorem websocketHost?_eq (settings : JsonFields) : websocketHost? settings = Json.firstThere (hostPlaces settings) := by
  have hlast : (Json.field? settings "host").or (Json.firstThere []) = Json.field? settings "host" := Option.or_none
  simp only [hostPlaces, Json.firstThere_cons, websocketHost?, hlast]
  cases Json.field? settings "headers" with
  | none => rfl
  | some headers => simp [Option.or_assoc]

theorem hostPlaces_thinned {settings settings' : JsonFields} (h : Thinned (.obj settings) (.obj settings')) :
    List.Forall₂ ThinnedField (hostPlaces settings) (hostPlaces settings') :=
  .cons ((h.field "headers").get? "Host") (.cons ((h.field "headers").get? "host") (.cons (h.field "host") .nil))

theorem hosts_thinned {settings settings' : JsonFields} (h : Thinned (.obj settings) (.obj settings'))
    (hfirst : Json.firstThere (hostPlaces settings) = some .null →
      hosts p (Json.firstGiven (hostPlaces settings)) = .ok []) :
    hosts p (websocketHost? settings') = hosts p (websocketHost? settings) := by
  rw [websocketHost?_eq, websocketHost?_eq, hosts_eq]
  exact Json.reads_firstThere rfl (fun hv => textsAt_thinned hv _) (hostPlaces_thinned h) (hosts_eq p ▸ hfirst)

theorem ownHosts_thinned {settings settings' : JsonFields} (h : Thinned (.obj settings) (.obj settings')) :
    hosts p (Json.field? settings' "host") = hosts p (Json.field? settings "host") := by
  rw [hosts_eq]
  exact Json.reads_field rfl (fun hv => textsAt_thinned hv _) (h.field "host")

theorem transport?_thinned (h : Thinned (.obj raw) (.obj raw'))
    (hfirst : ∀ name settings, text? p raw "network" = .ok (some name) → Network.ofName? name = some .ws →
      object p raw "network_settings" = .ok settings → Json.firstThere (hostPlaces settings) = some .null →
      hosts p (Json.firstGiven (hostPlaces settings)) = .ok []) :
    transport? p raw' = transport? p raw := by
  unfold transport?
  rw [text?_thinned h]
  refine (Alike.same _).bind_eq fun name? _ hname heq => ?_
  subst heq
  cases name? with
  | none => rfl
  | some name =>
    dsimp only
    cases hnetwork : Network.ofName? name with
    | none => rfl
    | some network =>
      refine (object_thinned h _).bind_eq fun settings settings' hsettings hthinned => ?_
      cases network with
      | tcp =>
        have htype := ((hthinned.field "header").get? "type").str?
        dsimp only
        rw [htype]
      | ws =>
        dsimp only
        rw [text?_thinned hthinned, hosts_thinned hthinned (hfirst name settings hname hnetwork hsettings)]
      | grpc =>
        dsimp only
        rw [firstText?_thinned (.cons hthinned .nil)]
      | h2 =>
        dsimp only
        rw [text?_thinned hthinned, ownHosts_thinned hthinned]
      | quic =>
        dsimp only
        rw [text?_thinned hthinned]

/-! ## TLS settings in force -/

section InForce

variable {tls tls' : JsonFields} (htls : Thinned (.obj tls) (.obj tls')) (h : Thinned (.obj raw) (.obj raw'))

include htls h

theorem alpn_thinned (hbeside : Json.field? tls "alpn" = some .null → alpn p raw [] = .ok []) :
    alpn p raw' tls' = alpn p raw tls := by
  rw [alpn_eq, alpn_eq]
  refine Json.reads_firstThere_pair rfl (fun hv => textsAt_thinned hv _) (htls.field _) (h.field _) fun hnull => ?_
  exact (alpn_beside p raw).symm.trans (hbeside hnull)

theorem allowedReality?_thinned (use : TlsUse)
    (hbeside : use.reality = true → Json.field? tls "reality" = some .null → reality? p [] raw = .ok none) :
    allowedReality? p raw' use tls' = allowedReality? p raw use tls := by
  unfold allowedReality?
  split_ifs with huse
  · rw [reality?_eq, reality?_eq]
    refine Json.reads_firstThere_pair rfl realityAt_thinned (htls.field _) (h.field _) fun hnull => ?_
    exact (reality?_beside p raw).symm.trans (hbeside huse hnull)
  · rfl

theorem tlsInForce_thinned (use : TlsUse)
    (halpn : Json.field? tls "alpn" = some .null → alpn p raw [] = .ok [])
    (hreality : use.reality = true → Json.field? tls "reality" = some .null → reality? p [] raw = .ok none) :
    tlsInForce p raw' use tls' = tlsInForce p raw use tls := by
  unfold tlsInForce
  rw [insecure_thinned (.cons htls (.cons h .nil)), alpn_thinned htls h halpn, utls?_thinned htls h,
    allowedReality?_thinned htls h use hreality, firstText?_thinned (.cons htls (.cons h .nil))]

end InForce

theorem tls?_thinned (use : TlsUse) (h : Thinned (.obj raw) (.obj raw'))
    (halpn : ∀ tls, tlsSection p use raw = .ok (true, tls) → Json.field? tls "alpn" = some .null →
      alpn p raw [] = .ok [])
    (hreality : ∀ tls, tlsSection p use raw = .ok (true, tls) → use.reality = true →
      Json.field? tls "reality" = some .null → reality? p [] raw = .ok none) :
    tls? p use raw' = tls? p use raw := by
  rw [tls?_eq, tls?_eq]
  refine (tlsSection_thinned use h).bind_eq fun s s' hsection ⟨hon, htls⟩ => ?_
  obtain ⟨enabled, tls⟩ := s
  obtain ⟨enabled', tls'⟩ := s'
  obtain rfl : enabled' = enabled := hon
  cases enabled' with
  | false => rfl
  | true =>
    dsimp only
    rw [tlsInForce_thinned htls h use (halpn tls hsection) (hreality tls hsection)]

/-! ## All nulls removed -/

theorem given?_stripped (raw : JsonFields) (key : String) :
    given? (Json.stripped raw) key = (given? raw key).map Json.bare := by
  rw [given?_eq, given?_eq, Json.field?_stripped]
  cases Json.field? raw key with
  | none => rfl
  | some v =>
    cases v with
    | obj fields =>
      show Json.given? (some (Json.bare (.obj fields))) = some (Json.bare (.obj fields))
      rw [Json.bare_obj]
      rfl
    | _ => rfl

theorem tlsSection_stripped {use : TlsUse} {on : Bool} {tls : JsonFields} (h : tlsSection p use raw = .ok (on, tls)) :
    tlsSection p use (Json.stripped raw) = .ok (on, Json.stripped tls) := by
  unfold tlsSection at h ⊢
  rw [given?_stripped]
  cases hv : given? raw "tls" with
  | none =>
    rw [hv] at h
    cases h
    rfl
  | some v =>
    rw [hv] at h
    cases v with
    | bool b =>
      cases h
      rfl
    | obj fields =>
      rw [Option.map_some, Json.bare_obj]
      dsimp only at h ⊢
      rw [bool?_thinned (Json.thinned_stripped fields)]
      cases hb : bool? p fields "enabled" with
      | error e =>
        rw [hb] at h
        cases h
      | ok enabled =>
        rw [hb] at h
        cases h
        rfl
    | _ => cases h

theorem object_stripped {key : String} {fields : JsonFields} (h : object p raw key = .ok fields) :
    object p (Json.stripped raw) key = .ok (Json.stripped fields) := by
  unfold object at h ⊢
  rw [given?_stripped]
  cases hv : given? raw key with
  | none =>
    rw [hv] at h
    cases h
    rfl
  | some v =>
    rw [hv] at h
    cases v with
    | obj fields =>
      cases h
      rw [Option.map_some, Json.bare_obj]
    | _ => cases h

section Behind

variable {tls : JsonFields}

/-- Of a `null` in the settings nothing is read, and without it what stands beside them. -/
theorem alpn_of_null (null : Json.field? tls "alpn" = some .null) : alpn p raw tls = .ok [] := by
  rw [alpn_eq, null]
  rfl

theorem alpn_stripped (null : Json.field? tls "alpn" = some .null) :
    alpn p (Json.stripped raw) (Json.stripped tls) = alpn p raw [] := by
  rw [alpn_eq, alpn_beside, Json.field?_stripped_of_null null, Json.firstThere_pair_none]
  exact Json.reads_field rfl (fun hv => textsAt_thinned hv _) ((Json.thinned_stripped raw).field "alpn")

theorem reality?_of_null (null : Json.field? tls "reality" = some .null) : reality? p tls raw = .ok none := by
  rw [reality?_eq, null]
  rfl

theorem reality?_stripped (null : Json.field? tls "reality" = some .null) :
    reality? p (Json.stripped tls) (Json.stripped raw) = reality? p [] raw := by
  rw [reality?_eq, reality?_beside, Json.field?_stripped_of_null null, Json.firstThere_pair_none]
  exact Json.reads_field rfl realityAt_thinned ((Json.thinned_stripped raw).field "reality")

end Behind

theorem hosts_stripped (settings : JsonFields) :
    hosts p (websocketHost? (Json.stripped settings)) = hosts p (Json.firstGiven (hostPlaces settings)) := by
  rw [websocketHost?_eq, hosts_eq]
  refine Json.reads_bare (fun hv => textsAt_thinned hv _) ?_
  exact .cons (Json.bind_get?_stripped _ _ _) (.cons (Json.bind_get?_stripped _ _ _)
    (.cons (Json.field?_stripped _ _) .nil))

end Raw

end ProxyFleet

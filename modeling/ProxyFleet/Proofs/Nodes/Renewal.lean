import Mathlib.Tactic.SplitIfs
import ProxyFleet.Proofs.Nodes.History
import ProxyFleet.Proofs.Protocol.Renewed

/-!
# A change that names the protocol a node has

A change that names a protocol but gives no parameters has the stored ones accepted anew, in their
canonical form. Where the protocol is the one that the node has, in any letter case, they are accepted,
and all of them stay but the transport, which a raw form has under another name.

* `Protocol.ofAnyCase?_lower` : the letter case of a protocol does not matter;
* `NodeChange.NamesOwn` : such a change;
* `Roster.changedParams_of_own` : what becomes of the parameters then;
* `Roster.update_of_own` : the change is made, if nothing else stands against it;
* `Roster.renewed_params_iff` : accepted parameters stay as they are exactly if they have no transport.
-/

namespace ProxyFleet

set_option autoImplicit false

theorem Text.foldChar_toLower (c : Char) : foldChar c.toLower = foldChar c := by
  by_cases hupper : c.val ≥ 'A'.val ∧ c.val ≤ 'Z'.val
  · -- the small letter is 32 above: neither is the Kelvin sign, and the small one stays as it is
    have hle : 65 ≤ c.val.toNat ∧ c.val.toNat ≤ 90 :=
      ⟨UInt32.le_iff_toNat_le.1 hupper.1, UInt32.le_iff_toNat_le.1 hupper.2⟩
    have hsmall : c.toLower.val.toNat = c.val.toNat + 32 := by
      have hval : c.toLower.val = c.val + 32 := congrArg Char.val (dif_pos hupper)
      rw [hval, UInt32.toNat_add, show (32 : UInt32).toNat = 32 from rfl]
      omega
    have hkelvin : ∀ c : Char, c.val.toNat ≤ 122 → c ≠ '\u212A' := by
      rintro c hc rfl
      exact absurd hc (by decide)
    have hstays : c.toLower.toLower = c.toLower := by
      refine dif_neg ?_
      rintro ⟨-, habove⟩
      have hninety : c.toLower.val.toNat ≤ 90 := UInt32.le_iff_toNat_le.1 habove
      omega
    rw [foldChar, if_neg (hkelvin _ (by omega)), hstays, foldChar, if_neg (hkelvin _ (by omega))]
  · rw [show c.toLower = c from dif_neg hupper]

theorem Protocol.ofAnyCase?_lower (name : String) : ofAnyCase? (Text.lower name) = ofAnyCase? name := by
  have hfold : Text.foldName (Text.lower name) = Text.foldName name := by
    rw [Text.foldName, Text.lower, String.toList_ofList, List.map_map]
    exact congrArg String.ofList (List.map_congr_left fun c _ => Text.foldChar_toLower c)
  rw [ofAnyCase?, hfold, ofAnyCase?]

theorem Params.Normal.withoutTransport {p : Params} (h : p.Normal) : p.withoutTransport.Normal := by
  cases p with
  | _ => exact h

/-- The change names the protocol of the node, and gives no parameters. -/
structure NodeChange.NamesOwn (c : NodeChange) (old : Node) : Prop where
  protocol : ∃ name, c.protocol = some name ∧ Protocol.ofAnyCase? name = some old.params.protocol
  params : c.params = none

/-- A row is read at any time, and only the times of what is read may differ then. -/
theorem NodeRow.node_later {r : NodeRow} {now : Instant} {id : Int} {n : Node} (h : r.node now id = .ok n)
    (later : Instant) : ∃ m, r.node later id = .ok m ∧ n.SameButTimes m := by
  obtain ⟨form, hform, h⟩ := exists_of_bind_eq_ok h
  obtain ⟨params, hparams, h⟩ := exists_of_bind_eq_ok h
  obtain ⟨port, hport, h⟩ := exists_of_bind_eq_ok h
  obtain ⟨groups, hgroups, h⟩ := exists_of_bind_eq_ok h
  cases h
  refine ⟨{ id, name := r.name, host := r.host, port, params, rate := r.rate, groups
            agentUrl := r.agentUrl, agentToken := r.agentToken
            createdAt := timeColumn later r.createdAt, updatedAt := timeColumn later r.updatedAt }, ?_, rfl⟩
  simp only [node, hform, hparams, hport, hgroups, bind, Except.bind, pure, Except.pure]

namespace Roster

variable {s : Roster} {now : Instant} {id : Int} {old : Node} {c : NodeChange}

theorem changedParams_of_own (hold : old.params.Normal) (hc : c.NamesOwn old) :
    changedParams old c = .ok old.params.withoutTransport := by
  obtain ⟨name, hname, hprotocol⟩ := hc.protocol
  obtain ⟨form, hform, -⟩ := old.params.canonical_eq_obj
  have hcase : Protocol.ofAnyCase? (Text.lower name) = some old.params.protocol :=
    (Protocol.ofAnyCase?_lower name).trans hprotocol
  have hgiven : ¬(c.protocol.isNone = true ∧ c.params.isNone = true) := by simp [hname]
  rw [changedParams, if_neg hgiven, hname, hc.params, hform]
  exact parseParams_eq_ok_iff.2 (Params.parse_canonical hold hcase hform)

/-- A change that names the protocol alone is made, if the settings have a port to listen at. -/
theorem update_of_own (hst : s.Stores) (hfind : s.find id now = .ok old) (hlisten : s.settings.localPort ≠ 0)
    (refused : UInt16 → Bool) {name : String} (hprotocol : Protocol.ofAnyCase? name = some old.params.protocol) :
    (s.update refused id { protocol := some name } now).1 =
      .ok { old with params := old.params.withoutTransport, updatedAt := now } := by
  have hold := hst.find hfind
  have hparams : changedParams old { protocol := some name } = .ok old.params.withoutTransport :=
    changedParams_of_own hold.params ⟨⟨name, rfl, hprotocol⟩, rfl⟩
  have hstays : ({ protocol := some name } : NodeChange).apply old = old := rfl
  have hn : ({ old with params := old.params.withoutTransport, updatedAt := now } : Node).Sound :=
    ⟨hold.params.withoutTransport, hold.names, hold.host, hold.port, hold.groups⟩
  unfold update
  simp only [hfind, hstays, hold.names, hparams, changedPort, settle, (checkDocument_of_sound hn).2 hlisten]

theorem find_later (hfind : s.find id now = .ok old) (later : Instant) :
    ∃ m, s.find id later = .ok m ∧ old.SameButTimes m := by
  obtain ⟨-, row, hrow, -⟩ := find_eq_ok hfind
  obtain ⟨m, hm, hsame⟩ := NodeRow.node_later ((find_iff_node hrow).1 hfind) later
  exact ⟨m, (find_iff_node hrow).2 hm, hsame⟩

theorem Revises.changedParams_eq (hfind : s.find id now = .ok old) {n : Node} {s' : Roster}
    (h : Revises s id c now (.ok n, s')) : changedParams old c = .ok n.params := by
  cases h with
  | revised _ old' find names params changed valid ports =>
    obtain rfl : old' = old := Except.ok.inj (find.symm.trans hfind)
    exact params

/-- The parameters that are read after a change are those of the node that is answered; after a failed one
they are as before. -/
theorem Revises.find_params (hs : s.Sound) (hst : s.Stores) (hfind : s.find id now = .ok old)
    (hgroups : ∀ groups ∈ c.groups, ∀ g ∈ groups, SixtyFourBits g) {result : Except NodeError Node × Roster}
    (h : Revises s id c now result) (later : Instant) :
    ∃ m, result.2.find id later = .ok m ∧ m.params = (result.1.toOption.getD old).params := by
  have hresult := h
  cases h with
  | refused | failed =>
    obtain ⟨m, hm, hsame⟩ := find_later hfind later
    exact ⟨m, hm, hsame.params⟩
  | revised n old' find names params changed valid ports =>
    have hid : n.id = id := by
      rw [changed]
      exact (find_eq_ok find).1
    obtain ⟨m, hm, hsame⟩ := (hresult.answered hs hst hgroups).1.find later
    exact ⟨m, hid ▸ hm, hsame.params⟩

end Roster

/-- **What is accepted stays as it is when it is accepted anew, exactly if it has no transport.** The
canonical form of what a protocol accepts is accepted again, without its transport. So after any calls with
groups of 64 bits, a change that names the protocol of a stored node and gives no parameters, if it is made,
takes the transport away: the parameters are read back as they were exactly if it failed or there was none.
Such a change is made if it asks for nothing else and the settings have a port to listen at. -/
theorem Roster.renewed_params_iff (settings : EngineSettings) (range : PortSettings)
    (calls : List (Instant × RosterCall)) (hcalls : ∀ c ∈ calls, c.2.GroupsFit) :
    let s := (empty settings range).run calls
    (∀ protocol raw p, Params.parse protocol raw = .ok p →
      ∃ form, Params.normalize protocol raw = .ok (.obj form) ∧
        Params.parse protocol form = .ok p.withoutTransport ∧
        (Params.parse protocol form = Params.parse protocol raw ↔ p.transport? = none)) ∧
    ∀ id now old, s.find id now = .ok old →
    ∀ refused c, c.NamesOwn old → (RosterCall.update refused id c).GroupsFit →
      let result := s.update refused id c now
      (∀ n, result.1 = .ok n → n.params = old.params.withoutTransport) ∧
      (∀ later, ∃ m, result.2.find id later = .ok m ∧
        (m.params = old.params ↔ (∃ e, result.1 = .error e) ∨ old.params.transport? = none)) ∧
      (c = { protocol := c.protocol } → s.settings.localPort ≠ 0 → ∃ n, result.1 = .ok n) := by
  intro s
  have hs : s.Sound := (Sound.empty settings range).run calls
  have hst : s.Stores := (Stores.empty settings range).run (Sound.empty settings range) hcalls
  refine ⟨fun protocol raw p hparse => ?_, fun id now old hfind refused c hc hgroups => ?_⟩
  · obtain ⟨hp, hprotocol⟩ := Params.parse_yields_normal protocol raw p hparse
    obtain ⟨form, hform, -⟩ := p.canonical_eq_obj
    have hagain := Params.parse_canonical hp hprotocol hform
    refine ⟨form, ?_, hagain, ?_⟩
    · rw [Params.normalize, hparse, ← hform]
      rfl
    · rw [hagain, hparse, Except.ok.injEq, Params.withoutTransport_eq_self_iff]
  · intro result
    have hrevises : Revises s id c now result := update_revises s refused id c now
    have hanswer : ∀ n, result.1 = .ok n → n.params = old.params.withoutTransport := by
      intro n hn
      have hresult : result = (.ok n, result.2) := Prod.fst_eq_iff.1 hn
      rw [hresult] at hrevises
      have hown := changedParams_of_own (hst.find hfind).params hc
      exact Except.ok.inj ((hrevises.changedParams_eq hfind).symm.trans hown)
    refine ⟨hanswer, fun later => ?_, fun hname hlisten => ?_⟩
    · obtain ⟨m, hm, hparams⟩ := hrevises.find_params hs hst hfind hgroups later
      refine ⟨m, hm, ?_⟩
      rw [hparams]
      cases hresult : result.1 with
      | error e => simp [Except.toOption]
      | ok n => simp [Except.toOption, hanswer n hresult, Params.withoutTransport_eq_self_iff]
    · obtain ⟨name, hgiven, hprotocol⟩ := hc.protocol
      rw [hgiven] at hname
      exact ⟨_, hname ▸ update_of_own hst hfind hlisten refused hprotocol⟩

/-- The raw parameters of a node behind a websocket. -/
def Roster.sampleStream : JsonFields := [("password", .str "secret"), ("network", .str "ws")]

/-- Such a node is added. -/
def Roster.sampleStreamed : List (Instant × RosterCall) :=
  [(⟨0⟩, .create (fun _ => false) { sampleRequest "a" with protocol := "trojan", params := sampleStream })]

/-- Its protocol is named, in capitals. -/
def Roster.sampleOwn : NodeChange := { protocol := some "TROJAN" }

theorem Roster.renewed_params_iff_sampleStreamed :
    let s := (empty {} sampleRange).run sampleStreamed
    (∀ c ∈ sampleStreamed, c.2.GroupsFit) ∧
    (∃ p, Params.parse "trojan" sampleStream = .ok p ∧
      ∃ form, Params.normalize "trojan" sampleStream = .ok (.obj form) ∧
      Params.parse "trojan" form = .ok p.withoutTransport ∧
      (Params.parse "trojan" form = Params.parse "trojan" sampleStream ↔ p.transport? = none)) ∧
    ∃ old, s.find 1 ⟨0⟩ = .ok old ∧ sampleOwn.NamesOwn old ∧
      let result := s.update (fun _ => false) 1 sampleOwn ⟨0⟩
      (∀ n, result.1 = .ok n → n.params = old.params.withoutTransport) ∧
      (∀ later, ∃ m, result.2.find 1 later = .ok m ∧
        (m.params = old.params ↔ (∃ e, result.1 = .error e) ∨ old.params.transport? = none)) ∧
      ∃ n, result.1 = .ok n := by
  have hcalls : ∀ c ∈ sampleStreamed, c.2.GroupsFit := by
    simp [sampleStreamed, RosterCall.GroupsFit, sampleRequest]
  obtain ⟨haccepted, hchanged⟩ := renewed_params_iff {} sampleRange sampleStreamed hcalls
  have hparse : Params.parse "trojan" sampleStream = .ok (.trojan
      { password := "secret", tls := {}, transport := some { network := .ws, path := "/" } }) := by rfl
  have hsome : (((empty {} sampleRange).run sampleStreamed).find 1 ⟨0⟩).toOption.map (·.params.protocol) =
      some .trojan := by decide +kernel
  obtain ⟨old, hold, hprotocol⟩ := Option.map_eq_some_iff.1 hsome
  have hfind := eq_ok_of_toOption hold
  have hown : sampleOwn.NamesOwn old := ⟨⟨"TROJAN", rfl, by rw [hprotocol]; decide⟩, rfl⟩
  have hgroups : (RosterCall.update (fun _ => false) 1 sampleOwn).GroupsFit := by
    simp [sampleOwn, RosterCall.GroupsFit]
  obtain ⟨hanswer, hread, hmade⟩ := hchanged 1 ⟨0⟩ old hfind (fun _ => false) sampleOwn hown hgroups
  exact ⟨hcalls, ⟨_, hparse, haccepted "trojan" sampleStream _ hparse⟩, old, hfind, hown, hanswer, hread,
    hmade rfl (by decide +kernel)⟩

/-- The node has a transport, the change is made, and the node that is read then has none. Its canonical
parameters are accepted as a node without one. -/
theorem Roster.update_own_drops_transport :
    let s := (empty {} sampleRange).run sampleStreamed
    let result := s.update (fun _ => false) 1 sampleOwn ⟨0⟩
    let websocket : Transport := { network := .ws, path := "/" }
    (s.find 1 ⟨0⟩).toOption.map (·.params.transport?) = some (some websocket) ∧
    result.1.toOption.isSome ∧
    (result.2.find 1 ⟨0⟩).toOption.map (·.params.transport?) = some none ∧
    ((Params.normalize "trojan" sampleStream).toOption.bind (·.obj?)).map
      (fun form => (Params.parse "trojan" form).toOption.map (·.transport?)) = some (some none) ∧
    (Params.parse "trojan" sampleStream).toOption.map (·.transport?) = some (some websocket) := by
  decide +kernel

end ProxyFleet

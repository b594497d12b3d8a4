import ProxyFleet.Proofs.Engine.References
import ProxyFleet.Proofs.Engine.Written
import ProxyFleet.Proofs.Nodes.Stored
import ProxyFleet.Proofs.Subscription.Offered

/-!
# The engine document of a subscription

Each node is checked when it is written, in a document of its own; a subscription puts many nodes into
one document. What was checked of each still holds there, with the credential of the user in place of
the node's own. That no two nodes have one name was not checked.

* `Params.offerable_withCredential` : an engine takes the parameters with the credential of a user;
* `errors_render_iff` : when the document of nodes that were checked is valid;
* `singBox_errors_iff` : when the document of a subscription is, whatever the store went through.
-/

namespace ProxyFleet

set_option autoImplicit false

/-! ## The credential of a user -/

theorem clientPassword_ne_empty {uuid : String} (h : uuid ≠ "") (method serverKey : String) :
    UserKey.clientPassword method serverKey uuid ≠ "" := by
  unfold UserKey.clientPassword
  split
  · next key _ =>
    split_ifs
    · -- the colon between the two keys is there whatever they are
      have hcolon : serverKey ++ ":" ++ key ≠ "" := by simp
      exact hcolon
    · exact h
  · exact h

/-- An engine takes the parameters with the credential of a user in place of the node's own. -/
theorem Params.offerable_withCredential {p : Params} (hp : p.Offerable) {uuid : String}
    (huuid : Text.isUuid uuid = true) :
    (p.withCredential uuid (Subscription.passwordFor p uuid)).Offerable := by
  have hne := ne_empty_of_isUuid huuid
  cases p with
  | anytls v | hysteria v | hysteria2 v => exact hne
  | shadowsocks v => exact ⟨hp.1, clientPassword_ne_empty hne v.method v.password⟩
  | trojan v => exact ⟨hne, hp.2⟩
  | tuic v => exact huuid
  | vless v | vmess v => exact ⟨huuid, hp.2⟩

/-! ## The document -/

open Subscription

/-- A node in a subscription of a user, as the engine document shows it. -/
def Node.userEntry (n : Node) (uuid : String) : Engine.NodeEntry := (n.toServer.forUser uuid).toEntry

theorem render_singBox (nodes : List Node) (uuid : String) (settings : EngineSettings) :
    render .singBox (nodes.map Node.toServer) uuid settings =
      (Engine.Document.ofNodes (nodes.map (·.userEntry uuid)) settings).toJson.pretty := by
  rw [render, body, List.map_map, List.map_map]
  rfl

/-- The document of nodes that were checked can be read, and nothing is wrong with it exactly if no
two of them have one name. -/
theorem errors_render_iff {nodes : List Node} (h : ∀ n ∈ nodes, n.Sound) {uuid : String}
    (huuid : Text.isUuid uuid = true) {settings : EngineSettings} (hport : settings.localPort ≠ 0) :
    ∃ v d, Json.parse? (render .singBox (nodes.map Node.toServer) uuid settings) = some v ∧
      Engine.Document.decoder v = .ok d ∧ (d.validate.errors = [] ↔ (nodes.map (·.name)).Nodup) := by
  obtain ⟨v, hparse, hread⟩ := Engine.read_ofNodes (nodes.map (·.userEntry uuid)) settings
  refine ⟨v, _, by rw [render_singBox, hparse], hread, ?_⟩
  have hparams : ∀ e ∈ nodes.map (·.userEntry uuid), e.params.Offerable := by
    rw [List.forall_mem_map]
    exact fun n hn => Params.offerable_withCredential (h n hn).params.offerable huuid
  have htags : (nodes.map (·.userEntry uuid)).map (·.tag) = nodes.map (·.name) := by
    rw [List.map_map]
    rfl
  have hnames : ∀ e ∈ nodes.map (·.userEntry uuid), e.tag ≠ "" ∧ e.tag ∉ Engine.reservedTags := by
    rw [List.forall_mem_map]
    exact fun n hn => (h n hn).name
  have hservers : ∀ e ∈ nodes.map (·.userEntry uuid), Net.isHost e.server = true ∧ e.port ≠ 0 := by
    rw [List.forall_mem_map]
    exact fun n hn => ⟨(h n hn).host, (h n hn).port⟩
  show (Engine.Document.ofNodes _ settings).errors = [] ↔ _
  rw [Engine.errors_ofNodes_eq_nil_iff hparams, htags]
  exact ⟨fun herrors => herrors.2.1, fun hnodup => ⟨hnames, hnodup, hservers, hport⟩⟩

/-- **When the document of a subscription is valid.** After any calls that add, change and remove nodes,
with groups of 64 bits, let a user have a uuid, and the settings a port to listen at. Then all nodes can
be read, what the user gets in the engine's own format is read as a document, and nothing is wrong with
the document exactly if no two of the nodes that the user is offered have one name. -/
theorem singBox_errors_iff (initial : EngineSettings) (range : PortSettings) (calls : List (Instant × RosterCall))
    (hcalls : ∀ c ∈ calls, c.2.GroupsFit) (u : User) (huuid : Text.isUuid u.uuid = true)
    (settings : EngineSettings) (hport : 1 ≤ settings.localPort) (now : Instant) :
    ∃ nodes v d, ((Roster.empty initial range).run calls).nodes.list now = .ok nodes ∧
      Json.parse? (render .singBox ((offered nodes u now).map Node.toServer) u.uuid settings) = some v ∧
      Engine.Document.decoder v = .ok d ∧
      (d.validate.errors = [] ↔ ((offered nodes u now).map (·.name)).Nodup) := by
  have hstores : ((Roster.empty initial range).run calls).Stores :=
    (Roster.Stores.empty initial range).run (Roster.Sound.empty initial range) hcalls
  obtain ⟨nodes, hlist, -, hsound⟩ := NodeTable.exists_list hstores now
  obtain ⟨v, d, hparse, hread, herrors⟩ :=
    errors_render_iff (fun n hn => hsound n (mem_offered_iff.1 hn).1) huuid (Engine.one_le_port_iff.1 hport)
  exact ⟨nodes, v, d, hlist, hparse, hread, herrors⟩

/-- Two nodes of the group 1, with these names. -/
def twoNodes (first second : String) : List (Instant × RosterCall) :=
  [.create (fun _ => false) { Roster.sampleRequest first with groups := [1] },
    .create (fun _ => false) { Roster.sampleRequest second with groups := [1] }].map (⟨0⟩, ·)

theorem groupsFit_twoNodes (first second : String) : ∀ c ∈ twoNodes first second, c.2.GroupsFit := by
  simp [twoNodes, RosterCall.GroupsFit, SixtyFourBits]

/-- A user of the group 1 whose uuid is one. -/
def sampleMember : User := { sampleUser with uuid := "aaaaaaaa-0000-4000-8000-000000000001" }

theorem singBox_errors_iff_twoNodes :
    (∀ c ∈ twoNodes "a" "b", c.2.GroupsFit) ∧ Text.isUuid sampleMember.uuid = true ∧
    1 ≤ ({} : EngineSettings).localPort ∧
    ∃ nodes v d, ((Roster.empty {} Roster.sampleRange).run (twoNodes "a" "b")).nodes.list ⟨0⟩ = .ok nodes ∧
      Json.parse? (render .singBox ((offered nodes sampleMember ⟨0⟩).map Node.toServer) sampleMember.uuid {}) = some v ∧
      Engine.Document.decoder v = .ok d ∧
      (d.validate.errors = [] ↔ ((offered nodes sampleMember ⟨0⟩).map (·.name)).Nodup) := by
  have huuid : Text.isUuid sampleMember.uuid = true := by decide
  have hport : 1 ≤ ({} : EngineSettings).localPort := by decide
  have hcalls := groupsFit_twoNodes "a" "b"
  exact ⟨hcalls, huuid, hport,
    singBox_errors_iff {} Roster.sampleRange (twoNodes "a" "b") hcalls sampleMember huuid {} hport ⟨0⟩⟩

/-- Two nodes of one name are added, one after the other, and a user who is offered both gets a document
that is not valid. -/
theorem singBox_of_one_name :
    let s := (Roster.empty {} Roster.sampleRange).run (twoNodes "a" "a")
    ∃ nodes v d, s.nodes.list ⟨0⟩ = .ok nodes ∧
      Json.parse? (render .singBox ((offered nodes sampleMember ⟨0⟩).map Node.toServer) sampleMember.uuid {}) = some v ∧
      Engine.Document.decoder v = .ok d ∧ d.validate.errors.map (·.rule) = [.unique] := by
  intro s
  have hstores : s.Stores :=
    (Roster.Stores.empty {} _).run (Roster.Sound.empty {} _) (groupsFit_twoNodes "a" "a")
  obtain ⟨nodes, hlist, -⟩ := NodeTable.exists_list hstores ⟨0⟩
  let entries := (offered nodes sampleMember ⟨0⟩).map (·.userEntry sampleMember.uuid)
  obtain ⟨v, hparse, hread⟩ := Engine.read_ofNodes entries {}
  refine ⟨nodes, v, _, hlist, by rw [render_singBox, hparse], hread, ?_⟩
  have hrules : (s.nodes.list ⟨0⟩).toOption.map (fun nodes => (Engine.Document.ofNodes
      ((offered nodes sampleMember ⟨0⟩).map (·.userEntry sampleMember.uuid)) {}).validate.errors.map (·.rule)) =
      some [.unique] := by decide +kernel
  rw [hlist] at hrules
  exact Option.some.inj hrules

end ProxyFleet

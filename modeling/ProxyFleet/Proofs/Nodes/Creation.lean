import ProxyFleet.Proofs.Engine.Validity
import ProxyFleet.Proofs.Nodes.Removal
import ProxyFleet.Proofs.Ports.Taken

/-!
# When a node is added, and what is left when it is not

Adding a node takes a port, writes the row, passes the port on to the node, and then looks at the
engine document; whatever fails is undone. What `Creates` says of holders is said here of the rows and
lists themselves, together with the requests that are accepted.

* `checkDocument_nodeOf` : when the engine document of a node that was requested is valid;
* `Roster.Accepts` : a request that is accepted;
* `Roster.Keeps`, `Roster.Adds` : nothing is left, and one node is added;
* `create_all_or_nothing` : a node is added exactly if the request is accepted, else nothing is left;
* `create_at_port_zero` : a port that is free and yet not for a node.
-/

namespace ProxyFleet

set_option autoImplicit false

/-! ## Names -/

theorem checkNames_eq_ok_iff {name host : String} : checkNames name host = .ok () ↔
    Text.trim name ≠ "" ∧ Text.trim name ∉ Engine.reservedTags ∧ Text.trim host ≠ "" := by
  unfold checkNames
  simp only [String.isEmpty_iff, List.contains_iff_mem]
  split_ifs with hname hreserved hhost
  · simp [hname]
  · simp [hreserved]
  · simp [hhost]
  · simp [hname, hreserved, hhost]

/-- A name that is not blank and not reserved is so also with its blanks: no reserved one has any. -/
theorem unreserved_of_trim {name : String} (hname : Text.trim name ≠ "")
    (hreserved : Text.trim name ∉ Engine.reservedTags) : name ≠ "" ∧ name ∉ Engine.reservedTags := by
  have hempty : Text.trim "" = "" := by decide
  have htrim : ∀ tag ∈ Engine.reservedTags, Text.trim tag = tag := by decide
  refine ⟨fun h => hname ?_, fun h => hreserved ?_⟩
  · rw [h, hempty]
  · rwa [htrim name h]

/-- The port of a node, as it is held for it. -/
def Node.inbound (n : Node) : PortAllocation :=
  { port := n.port, owner := n.id, purpose := .inbound, allocatedAt := n.createdAt }

namespace Roster

variable {s : Roster} {refused : UInt16 → Bool} {r : NodeRequest} {now : Instant}

/-! ## The engine document of the node -/

theorem parseParams_eq_ok_iff {protocol : String} {raw : JsonFields} {params : Params} :
    parseParams protocol raw = .ok params ↔ Params.parse (Text.lower protocol) raw = .ok params := by
  unfold parseParams
  cases Params.parse (Text.lower protocol) raw with
  | error e => exact iff_of_false nofun nofun
  | ok p =>
    constructor
    all_goals
      rintro ⟨⟩
      rfl

theorem parseParams_normal {protocol : String} {raw : JsonFields} {params : Params}
    (h : parseParams protocol raw = .ok params) : params.Normal :=
  (Params.parse_yields_normal _ _ _ (parseParams_eq_ok_iff.1 h)).1

/-- The document of a node whose name is free to take and whose parameters an engine takes is valid if
the host is one, and neither the node's port nor the local one is zero. -/
theorem checkDocument_eq_ok_iff {n : Node} (hparams : n.params.Offerable)
    (hname : n.name ≠ "" ∧ n.name ∉ Engine.reservedTags) :
    s.checkDocument n = .ok () ↔ Net.isHost n.host = true ∧ n.port ≠ 0 ∧ s.settings.localPort ≠ 0 := by
  have hoffer : ∀ e ∈ [n.toEntry], e.params.Offerable := fun e he => List.mem_singleton.1 he ▸ hparams
  have herrors : (Engine.Document.ofNodes [n.toEntry] s.settings).errors = [] ↔
      Net.isHost n.host = true ∧ n.port ≠ 0 ∧ s.settings.localPort ≠ 0 := by
    rw [Engine.errors_ofNodes_eq_nil_iff hoffer]
    simp only [List.mem_singleton, forall_eq, List.map_cons, List.map_nil, List.nodup_singleton, true_and, and_assoc]
    exact ⟨fun h => h.2.2, fun h => ⟨hname.1, hname.2, h⟩⟩
  rw [← herrors, ← List.isEmpty_iff]
  unfold checkDocument
  dsimp only
  split_ifs with hvalid
  · exact iff_of_true rfl hvalid
  · exact iff_of_false nofun hvalid

/-- So is that of a node that was requested, if its name was checked and its parameters were accepted. -/
theorem checkDocument_nodeOf {params : Params} (hnames : checkNames r.name r.host = .ok ())
    (hparams : parseParams r.protocol r.params = .ok params) (id : Int) (port : UInt16) :
    s.checkDocument (nodeOf r params id port now) = .ok () ↔
      Net.isHost r.host = true ∧ port ≠ 0 ∧ s.settings.localPort ≠ 0 := by
  obtain ⟨hname, hreserved, -⟩ := checkNames_eq_ok_iff.1 hnames
  exact checkDocument_eq_ok_iff (parseParams_normal hparams).offerable (unreserved_of_trim hname hreserved)

/-! ## What is left -/

/-- The same nodes, and the same ports held and recorded as such. -/
structure Keeps (s s' : Roster) : Prop where
  nodes : s'.nodes.rows = s.nodes.rows
  held : s'.ports.held = s.ports.held
  active : s'.ports.table.select (·.isActive) = s.ports.table.select (·.isActive)

/-- One more node, with one port that is held and recorded for it, and all else as it was. -/
structure Adds (s : Roster) (n : Node) (s' : Roster) : Prop where
  nodes : s'.nodes.rows = s.nodes.rows ++ [(n.id, NodeRow.ofNode n)]
  held : s'.ports.held = insertAllocation n.inbound s.ports.held
  table : s'.ports.table = s.ports.table.insert (PortRow.ofAllocation n.inbound)
  range : s'.ports.range = s.ports.range
  conflicts : s'.ports.conflicts = s.ports.conflicts
  settings : s'.settings = s.settings

/-- A request that is accepted: its name and host are not blank, its name is not reserved, its
parameters are accepted, its host may stand as a server, and there is a port for it, also for the local
listener of its document. -/
structure Accepts (s : Roster) (refused : UInt16 → Bool) (r : NodeRequest) (now : Instant) : Prop where
  name : Text.trim r.name ≠ ""
  unreserved : Text.trim r.name ∉ Engine.reservedTags
  host : Text.trim r.host ≠ ""
  params : (parseParams r.protocol r.params).isOk = true
  server : Net.isHost r.host = true
  localPort : s.settings.localPort ≠ 0
  port : ∃ p, (takePort s.ports refused r.port pendingOwner now).1 = .ok p ∧ p ≠ 0

/-- Which port is taken, if one is. -/
theorem takePort_eq_ok {ports : Ports} (h : ports.Agrees) {asked : Option UInt16} {p : UInt16} {owner : Int}
    (hok : (takePort ports refused asked owner now).1 = .ok p) :
    ports.Chosen refused asked p ∧ (takePort ports refused asked owner now).2 =
      ports.taken { port := p, owner, purpose := .inbound, allocatedAt := now } := by
  cases asked with
  | none =>
    have hok : (ports.allocate refused owner .inbound now).1 = .ok p := hok
    rcases h.allocate_cases refused owner .inbound now with ⟨q, hf, heq⟩ | ⟨-, heq⟩
    · obtain rfl : q = p := Except.ok.inj ((congrArg Prod.fst heq).symm.trans hok)
      exact ⟨⟨hf, fun _ => Ports.allocate_least hok⟩, congrArg Prod.snd heq⟩
    · rw [heq] at hok
      cases hok
  | some q =>
    have hok : (ports.allocateAt refused q owner .inbound now).1 = .ok p := hok
    by_cases hf : ports.Free refused q
    · have heq := h.allocateAt_of_free hf owner .inbound now
      obtain rfl : q = p := Except.ok.inj ((congrArg Prod.fst heq).symm.trans hok)
      exact ⟨⟨hf, rfl⟩, congrArg Prod.snd heq⟩
    · obtain ⟨e, n, heq, -⟩ := Ports.Agrees.allocateAt_of_not_free hf owner .inbound now
      rw [heq] at hok
      cases hok

/-- If no port is taken, at most a conflict is counted. -/
theorem takePort_eq_error {ports : Ports} (h : ports.Agrees) {asked : Option UInt16} {owner : Int} {e : PortError}
    (herr : (takePort ports refused asked owner now).1 = .error e) :
    ∃ n, (takePort ports refused asked owner now).2 = { ports with conflicts := n } := by
  rcases takePort_cases h refused asked owner now with ⟨p, -, heq⟩ | ⟨e', n, heq⟩
  · rw [heq] at herr
    cases herr
  · exact ⟨n, congrArg Prod.snd heq⟩

section Enroll

variable {params : Params} {p : UInt16}

/-- A port as it is held before the node it is for has an id. -/
def pendingAllocation (p : UInt16) (now : Instant) : PortAllocation :=
  { port := p, owner := pendingOwner, purpose := .inbound, allocatedAt := now }

/-- A node whose document is valid is added. -/
theorem enroll_of_valid (h : s.ports.Agrees) (hf : s.ports.Free refused p)
    (hdoc : s.checkDocument (nodeOf r params s.nodes.nextId p now) = .ok ()) :
    ∃ s', enroll { s with ports := s.ports.taken (pendingAllocation p now) } r params p now =
      (.ok (nodeOf r params s.nodes.nextId p now), s') ∧ s.Adds (nodeOf r params s.nodes.nextId p now) s' := by
  have hassign : (s.ports.taken (pendingAllocation p now)).assign p (nodeOf r params s.nodes.nextId p now).id =
      (.ok (), s.ports.taken (nodeOf r params s.nodes.nextId p now).inbound) :=
    Ports.assign_taken (a := pendingAllocation p now) h hf s.nodes.nextId
  have hdoc' : checkDocument { s with ports := s.ports.taken (pendingAllocation p now) }
      (nodeOf r params s.nodes.nextId p now) = .ok () := hdoc
  unfold enroll
  simp only [hassign, Except.mapError, bind, Except.bind, hdoc']
  exact ⟨_, rfl, rfl, rfl, rfl, rfl, rfl, rfl⟩

/-- Of a node whose document is not valid nothing is left. -/
theorem enroll_of_invalid (h : s.Sound) (hf : s.ports.Free refused p) {e : NodeError}
    (hdoc : s.checkDocument (nodeOf r params s.nodes.nextId p now) = .error e) :
    ∃ s', enroll { s with ports := s.ports.taken (pendingAllocation p now) } r params p now = (.error e, s') ∧
      s.Keeps s' := by
  have hassign : (s.ports.taken (pendingAllocation p now)).assign p (nodeOf r params s.nodes.nextId p now).id =
      (.ok (), s.ports.taken (nodeOf r params s.nodes.nextId p now).inbound) :=
    Ports.assign_taken (a := pendingAllocation p now) h.ports hf s.nodes.nextId
  have hdoc' : checkDocument { s with ports := s.ports.taken (pendingAllocation p now) }
      (nodeOf r params s.nodes.nextId p now) = .error e := hdoc
  have hfree : s.ports.Free refused (nodeOf r params s.nodes.nextId p now).inbound.port := hf
  unfold enroll
  simp only [hassign, Except.mapError, bind, Except.bind, hdoc']
  refine ⟨_, rfl, ?_, ?_, ?_⟩
  · exact h.nodes.rows_eraseId_insert _
  · exact Ports.held_release_taken hfree now
  · exact Ports.active_release_taken h.ports hfree now

end Enroll

/-- A request for which a port was taken is accepted if the document of the node is valid. -/
theorem accepts_iff {params : Params} {p : UInt16} (hnames : checkNames r.name r.host = .ok ())
    (hparams : parseParams r.protocol r.params = .ok params)
    (hport : (takePort s.ports refused r.port pendingOwner now).1 = .ok p) :
    s.Accepts refused r now ↔ s.checkDocument (nodeOf r params s.nodes.nextId p now) = .ok () := by
  rw [checkDocument_nodeOf hnames hparams]
  obtain ⟨hname, hreserved, hhost⟩ := checkNames_eq_ok_iff.1 hnames
  constructor
  · rintro ⟨-, -, -, -, hserver, hlocal, q, hq, hne⟩
    obtain rfl : p = q := Except.ok.inj (hport.symm.trans hq)
    exact ⟨hserver, hne, hlocal⟩
  · rintro ⟨hserver, hne, hlocal⟩
    exact ⟨hname, hreserved, hhost, by rw [hparams]; rfl, hserver, hlocal, p, hport, hne⟩

/-- A node is added if the request is accepted, and else nothing is left. -/
theorem create_cases (h : s.Sound) (refused : UInt16 → Bool) (r : NodeRequest) (now : Instant) :
    (s.Accepts refused r now ∧ ∃ params p s', parseParams r.protocol r.params = .ok params ∧
      s.ports.Chosen refused r.port p ∧ s.Adds (nodeOf r params s.nodes.nextId p now) s' ∧
      s.create refused r now = (.ok (nodeOf r params s.nodes.nextId p now), s')) ∨
    (¬s.Accepts refused r now ∧ ∃ e s', s.create refused r now = (.error e, s') ∧ s.Keeps s') := by
  unfold create
  cases hnames : checkNames r.name r.host with
  | error fault =>
    refine .inr ⟨fun ha => ?_, _, _, rfl, rfl, rfl, rfl⟩
    rw [checkNames_eq_ok_iff.2 ⟨ha.name, ha.unreserved, ha.host⟩] at hnames
    cases hnames
  | ok _ =>
    cases hparams : parseParams r.protocol r.params with
    | error e =>
      refine .inr ⟨fun ha => ?_, _, _, rfl, rfl, rfl, rfl⟩
      have hok := ha.params
      rw [hparams] at hok
      cases hok
    | ok params =>
      rcases htake : takePort s.ports refused r.port pendingOwner now with ⟨e | p, ports⟩
      · have hport : (takePort s.ports refused r.port pendingOwner now).1 = .error e := congrArg Prod.fst htake
        obtain ⟨n, hn⟩ := takePort_eq_error h.ports hport
        obtain rfl : ports = { s.ports with conflicts := n } := (congrArg Prod.snd htake).symm.trans hn
        refine .inr ⟨fun ha => ?_, _, _, rfl, rfl, rfl, rfl⟩
        obtain ⟨p, hp, -⟩ := ha.port
        rw [hport] at hp
        cases hp
      · -- with the port taken, the check of the document decides, and a failure gives the port back
        have hport : (takePort s.ports refused r.port pendingOwner now).1 = .ok p := congrArg Prod.fst htake
        obtain ⟨hchosen, hn⟩ := takePort_eq_ok h.ports hport
        obtain rfl : ports = s.ports.taken (pendingAllocation p now) := (congrArg Prod.snd htake).symm.trans hn
        rw [accepts_iff hnames hparams hport]
        cases hdoc : s.checkDocument (nodeOf r params s.nodes.nextId p now) with
        | ok _ =>
          obtain ⟨s', heq, hadds⟩ := enroll_of_valid h.ports hchosen.1 hdoc
          exact .inl ⟨rfl, params, p, s', rfl, hchosen, hadds, heq⟩
        | error e =>
          obtain ⟨s', heq, hkeeps⟩ := enroll_of_invalid h hchosen.1 hdoc
          exact .inr ⟨nofun, e, s', heq, hkeeps⟩

/-! ## Ids -/

/-- No call gives an id again that was given before. -/
theorem nextId_le_call (s : Roster) (now : Instant) (c : RosterCall) (hs : s.Sound) :
    s.nodes.nextId ≤ (s.call now c).nodes.nextId := by
  cases c with
  | create refused request =>
    rw [call]
    exact nextId_le_create s refused request now
  | update refused id change =>
    exact Int.le_of_eq (update_updates hs.ports refused id change now).nextId.symm
  | delete id =>
    have hsame : (s.delete id now).2.nodes.nextId = s.nodes.nextId := by
      rcases delete_cases hs.ports id now with ⟨e, heq⟩ | ⟨ports, s', heq, hnodes, -⟩
      · rw [heq]
      · rw [heq, hnodes]
        rfl
    exact Int.le_of_eq hsame.symm
  | reopen settings range => exact Int.le_refl _
  | ports c => exact Int.le_refl _

theorem nextId_le_run (hs : s.Sound) (calls : List (Instant × RosterCall)) :
    s.nodes.nextId ≤ (s.run calls).nodes.nextId := by
  induction calls generalizing s with
  | nil => exact Int.le_refl _
  | cons c calls ih => exact Int.le_trans (nextId_le_call s c.1 c.2 hs) (ih (hs.call c.1 c.2))

/-- Of a range that passes its check, port 0 is never taken. -/
theorem takePort_ne_zero (h : s.ports.Agrees) (hrange : s.ports.range.check.isOk = true) {asked : Option UInt16}
    {owner : Int} : (takePort s.ports refused asked owner now).1 ≠ .ok 0 := by
  intro hok
  obtain ⟨⟨⟨hcontains, -⟩, -⟩, -⟩ := takePort_eq_ok h hok
  have hfirst : s.ports.range.first ≤ 0 := by simpa using (Bool.and_eq_true_iff.1 hcontains).1
  have hzero : s.ports.range.first = 0 := UInt16.le_antisymm hfirst (UInt16.zero_le)
  rw [PortSettings.check, if_pos hzero] at hrange
  cases hrange

/-- **A node is added entirely or not at all**, and exactly if its request is accepted. If it is, its
port is the one asked for, or else the least that is free, and its id was never a node's before. If it
is not, the rows, the held ports and those recorded as held are what they were. A range that passes its
check has no port 0, so that a request is then accepted whatever port is taken for it. -/
theorem create_all_or_nothing (h : s.Sound) (refused : UInt16 → Bool) (r : NodeRequest) (now : Instant) :
    let result := s.create refused r now
    (result.1.isOk = true ↔ s.Accepts refused r now) ∧
    (∀ e, result.1 = .error e → s.Keeps result.2) ∧
    (∀ n, result.1 = .ok n → s.Adds n result.2 ∧ s.ports.Chosen refused r.port n.port ∧
      (∃ params, parseParams r.protocol r.params = .ok params ∧ n = nodeOf r params n.id n.port now) ∧
      ∀ (s₀ : Roster) (calls : List (Instant × RosterCall)), s₀.Sound → s₀.run calls = s →
        ∀ e ∈ s₀.nodes.rows, e.1 < n.id) ∧
    (s.ports.range.check.isOk = true → (takePort s.ports refused r.port pendingOwner now).1 ≠ .ok 0) := by
  dsimp only
  have hzero : s.ports.range.check.isOk = true →
      (takePort s.ports refused r.port pendingOwner now).1 ≠ .ok 0 := fun hrange => takePort_ne_zero h.ports hrange
  rcases create_cases h refused r now with
    ⟨haccepts, params, p, s', hparams, hchosen, hadds, heq⟩ | ⟨haccepts, e, s', heq, hkeeps⟩
  · rw [heq]
    refine ⟨iff_of_true rfl haccepts, fun e he => ?_, fun n hn => ?_, hzero⟩
    · cases he
    obtain rfl := Except.ok.inj hn
    refine ⟨hadds, hchosen, ⟨params, hparams, rfl⟩, fun s₀ calls h₀ hrun e he => ?_⟩
    have hnext := nextId_le_run h₀ calls
    rw [hrun] at hnext
    exact Int.lt_of_lt_of_le (h₀.nodes.below e he) hnext
  · rw [heq]
    refine ⟨iff_of_false Bool.false_ne_true haccepts, fun _ _ => hkeeps, fun n hn => ?_, hzero⟩
    cases hn

theorem create_all_or_nothing_sample :
    let s := empty {} sampleRange
    let result := s.create (fun _ => false) (sampleRequest "a") ⟨0⟩
    s.Sound ∧ result.1.isOk = true ∧
    (result.1.isOk = true ↔ s.Accepts (fun _ => false) (sampleRequest "a") ⟨0⟩) ∧
    (∀ e, result.1 = .error e → s.Keeps result.2) ∧
    (∀ n, result.1 = .ok n → s.Adds n result.2 ∧ s.ports.Chosen (fun _ => false) none n.port ∧
      (∃ params, parseParams "shadowsocks" (sampleRequest "a").params = .ok params ∧
        n = nodeOf (sampleRequest "a") params n.id n.port ⟨0⟩) ∧
      ∀ (s₀ : Roster) (calls : List (Instant × RosterCall)), s₀.Sound → s₀.run calls = s →
        ∀ e ∈ s₀.nodes.rows, e.1 < n.id) ∧
    (s.ports.range.check.isOk = true → (takePort s.ports (fun _ => false) none pendingOwner ⟨0⟩).1 ≠ .ok 0) := by
  have hok : ((empty {} sampleRange).create (fun _ => false) (sampleRequest "a") ⟨0⟩).1.isOk = true := by
    decide +kernel
  have hsound : (empty {} sampleRange).Sound := Sound.empty {} sampleRange
  exact ⟨hsound, hok, create_all_or_nothing hsound (fun _ => false) (sampleRequest "a") ⟨0⟩⟩

/-- A range that begins with port 0 is one that fails its check. -/
def rangeFromZero : PortSettings := { first := 0, last := 10 }

/-- Port 0 can be taken from a range that begins with it, but no engine document may have it: nothing
else is wrong with the request, and yet no node is added. -/
theorem create_at_port_zero :
    let s := empty {} rangeFromZero
    let r := sampleRequest "a"
    s.Sound ∧ Text.trim r.name ≠ "" ∧ Text.trim r.name ∉ Engine.reservedTags ∧ Text.trim r.host ≠ "" ∧
    (parseParams r.protocol r.params).isOk = true ∧ Net.isHost r.host = true ∧ s.settings.localPort ≠ 0 ∧
    (takePort s.ports (fun _ => false) r.port pendingOwner ⟨0⟩).1.isOk = true ∧
    (s.create (fun _ => false) r ⟨0⟩).1.isOk = false :=
  ⟨Sound.empty {} rangeFromZero, by decide +kernel⟩

end Roster

end ProxyFleet

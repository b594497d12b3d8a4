import ProxyFleet.Proofs.Sync.Run

/-!
# Who is left on an agent

After a pass in which no call failed, an agent lists the users that the groups of its node admit and
no others, unless the node has no groups: then the pass calls nobody, and the agent keeps whom it had.

* `UserTable.Authorised` : a name that a node admits at a moment;
* `Agents.mem_names_ask`, `Agents.mem_names_run_iff` : the names that an agent lists after one change
  of a plan, and after all of them;
* `Agents.mem_names_syncUsers_iff` : the names that it lists after a pass for a node with groups;
* `Agents.syncUsers_leaves_authorised_iff` : when a pass leaves nobody who is not admitted.
-/

namespace ProxyFleet

set_option autoImplicit false

/-! ## Who is admitted -/

/-- The name is the uuid of a user who may connect at the moment, in one of the groups of the node. -/
def UserTable.Authorised (users : UserTable) (n : Node) (now : Instant) (name : String) : Prop :=
  ∃ u ∈ users.list now, u.uuid = name ∧ u.isEligible now = true ∧ ∃ g ∈ n.groups, u.group = some g

instance (users : UserTable) (n : Node) (now : Instant) (name : String) :
    Decidable (users.Authorised n now name) :=
  inferInstanceAs (Decidable (∃ u ∈ users.list now, u.uuid = name ∧ u.isEligible now = true ∧
    ∃ g ∈ n.groups, u.group = some g))

theorem UserTable.mem_inGroups_iff {users : UserTable} {groups : List Int} {now : Instant} {u : User} :
    u ∈ users.inGroups groups now ↔ u ∈ users.list now ∧ ∃ g ∈ groups, u.group = some g := by
  simp only [inGroups, list, ofRows, Table.select, List.mem_map, List.mem_filter, Option.any_eq_true,
    List.contains_iff_mem]
  constructor
  · rintro ⟨⟨id, row⟩, ⟨hrow, g, hg, hmem⟩, rfl⟩
    exact ⟨⟨⟨id, row⟩, ⟨hrow, trivial⟩, rfl⟩, g, hmem, hg⟩
  · rintro ⟨⟨⟨id, row⟩, ⟨hrow, -⟩, rfl⟩, g, hmem, hg⟩
    exact ⟨⟨id, row⟩, ⟨hrow, g, hg, hmem⟩, rfl⟩

theorem UserTable.due_ne_none_iff {users : UserTable} {n : Node} {now : Instant} {name : String} :
    users.due n now name ≠ none ↔ users.Authorised n now name := by
  rw [due, ne_eq, Option.map_eq_none_iff, List.find?_eq_none]
  simp only [List.mem_reverse, List.mem_filter, mem_inGroups_iff, beq_iff_eq]
  constructor
  · intro h
    push Not at h
    obtain ⟨u, ⟨⟨hu, hgroup⟩, helig⟩, hname⟩ := h
    exact ⟨u, hu, hname, helig, hgroup⟩
  · rintro ⟨u, hu, hname, helig, hgroup⟩ hnone
    exact hnone u ⟨⟨hu, hgroup⟩, helig⟩ hname

namespace Agent

theorem names_eq (a : Agent) : a.names = a.users.map (·.username) := by
  rw [names, secrets, List.map_map]
  rfl

theorem find?_ofList_secrets_eq_none_iff {a : Agent} {name : String} :
    (Secrets.ofList a.secrets).find? name = none ↔ name ∉ a.names := by
  rw [Secrets.find?_ofList, Secrets.find?_eq_none_iff, List.map_reverse, List.mem_reverse, names]

/-- A change adds its name or takes it away; other names stay. -/
theorem mem_names_answer (a : Agent) (c : UserChange) (name : String) :
    name ∈ (a.answer c.request).2.names ↔
      (∃ secret, c = .add name secret) ∨ name ∈ a.names ∧ c ≠ .delete name := by
  cases c with
  | add username secret =>
    rw [UserChange.request, names_add, List.mem_append, List.mem_singleton]
    simp [or_comm, eq_comm]
  | update username secret =>
    rw [UserChange.request, names_update]
    simp
  | delete username =>
    rw [UserChange.request, names_delete, List.mem_filter, bne_iff_ne]
    simp [eq_comm]

end Agent

namespace Agents

variable {e : Endpoint} {plan : List UserChange} {p : SyncReport × Agents}

/-! ## The names after a run -/

theorem mem_names_ask {c : UserChange} (hr : p.2.refuses e c = false) (name : String) :
    name ∈ ((ask e p c).2.get e.baseUrl).names ↔
      (∃ secret, c = .add name secret) ∨ name ∈ (p.2.get e.baseUrl).names ∧ c ≠ .delete name := by
  have hcalled : p.2.called e c.request = ((p.2.get e.baseUrl).answer c.request).2 :=
    if_neg (Bool.eq_false_iff.1 hr)
  rw [ask, get_call, hcalled, Agent.mem_names_answer]

/-- If no change is refused, an agent lists the names that were added, and those it had that were not
deleted. -/
theorem mem_names_run_iff (hnodup : (plan.map UserChange.username).Nodup)
    (hr : ∀ c ∈ plan, p.2.refuses e c = false) (name : String) :
    name ∈ ((plan.foldl (ask e) p).2.get e.baseUrl).names ↔
      (∃ secret, .add name secret ∈ plan) ∨
        name ∈ (p.2.get e.baseUrl).names ∧ .delete name ∉ plan := by
  induction plan generalizing p with
  | nil => simp
  | cons c plan ih =>
    obtain ⟨hnew, hnodup⟩ := List.nodup_cons.1 hnodup
    obtain ⟨hc, hrest⟩ := List.forall_mem_cons.1 hr
    rw [List.foldl_cons, ih hnodup fun d hd => (refuses_ask c d).trans (hrest d hd), mem_names_ask hc]
    simp only [List.mem_cons]
    constructor
    · rintro (⟨secret, hadd⟩ | ⟨⟨secret, rfl⟩ | ⟨hname, hne⟩, hdelete⟩)
      · exact .inl ⟨secret, .inr hadd⟩
      · exact .inl ⟨secret, .inl rfl⟩
      · exact .inr ⟨hname, fun h => h.elim (fun h => hne h.symm) hdelete⟩
    · rintro (⟨secret, rfl | hadd⟩ | ⟨hname, hnot⟩)
      · -- the name was just added, and no later change is of it
        have hdelete : UserChange.delete name ∉ plan := fun h => hnew (List.mem_map.2 ⟨_, h, rfl⟩)
        exact .inr ⟨.inl ⟨secret, rfl⟩, hdelete⟩
      · exact .inl ⟨secret, hadd⟩
      · exact .inr ⟨.inr ⟨hname, fun h => hnot (.inl h.symm)⟩, fun h => hnot (.inr h)⟩

theorem failed_foldl_ask : (plan.foldl (ask e) p).1.failed = p.1.failed + plan.countP (p.2.refuses e) := by
  induction plan generalizing p with
  | nil => rfl
  | cons c plan ih =>
    have hcongr : plan.countP ((ask e p c).2.refuses e) = plan.countP (p.2.refuses e) :=
      List.countP_congr fun d _ => by rw [refuses_ask]
    rw [List.foldl_cons, ih, hcongr, failed_ask, List.countP_cons]
    omega


/-! ## The names after a pass -/

section Pass

variable {s s' : Agents} {users : UserTable} {settings : AgentSettings} {n : Node} {now : Instant}
  {report : SyncReport}

theorem syncUsers_of_groups_eq_nil (hgroups : n.groups = []) :
    s.syncUsers users settings n now = (.ok {}, s) := by
  simp [syncUsers, hgroups]

/-- A pass that returns for a node with groups has run the plan. -/
theorem syncUsers_eq_ok (hgroups : n.groups ≠ [])
    (hpass : s.syncUsers users settings n now = (.ok report, s')) :
    let e := Endpoint.ofNode n settings
    (s.planOf e users n now).foldl (ask e) ({}, (s.call e .list).2) = (report, s') := by
  intro e
  by_cases hlist : (s.get e.baseUrl).refuses AgentRequest.list.action = true
  · have hne : n.groups.isEmpty = false := by simpa using hgroups
    have hcall := call_eq s e .list
    rw [if_pos hlist] at hcall
    simp [syncUsers, hne, show Endpoint.ofNode n settings = e from rfl, hcall] at hpass
  · rw [syncUsers_eq hgroups rfl (Bool.eq_false_iff.2 hlist), run_eq_foldl] at hpass
    simp only [Prod.mk.injEq, Except.ok.injEq] at hpass
    exact Prod.ext hpass.1 hpass.2

/-- **Passes for nodes with groups.** If no call failed, the agent lists just the admitted names,
whatever it listed before. -/
theorem mem_names_syncUsers_iff (hgroups : n.groups ≠ [])
    (hpass : s.syncUsers users settings n now = (.ok report, s')) (hfailed : report.failed = 0) (name : String) :
    name ∈ (s'.get (Endpoint.ofNode n settings).baseUrl).names ↔ users.Authorised n now name := by
  set e := Endpoint.ofNode n settings with he
  have hrun := syncUsers_eq_ok hgroups hpass
  have hr : ∀ c ∈ s.planOf e users n now, (s.call e .list).2.refuses e c = false := by
    have hcount : ((s.planOf e users n now).foldl (ask e) ({}, (s.call e .list).2)).1.failed =
        0 + (s.planOf e users n now).countP ((s.call e .list).2.refuses e) := failed_foldl_ask
    rw [hrun, hfailed, Nat.zero_add] at hcount
    exact fun c hc => Bool.eq_false_iff.2 (List.countP_eq_zero.1 hcount.symm c hc)
  have hnames := mem_names_run_iff (p := ({}, (s.call e .list).2)) nodup_planOf hr name
  rw [hrun, get_list] at hnames
  rw [hnames, ← UserTable.due_ne_none_iff]
  simp only [mem_planOf, UserChange.Needed]
  by_cases hlisted : name ∈ (s.get e.baseUrl).names
  · have hheld : (Secrets.ofList (s.get e.baseUrl).secrets).find? name ≠ none :=
      fun hnone => Agent.find?_ofList_secrets_eq_none_iff.1 hnone hlisted
    simp [hlisted, hheld, Option.isSome_iff_ne_none]
  · have hheld := Agent.find?_ofList_secrets_eq_none_iff.2 hlisted
    simp [hlisted, hheld, Option.ne_none_iff_exists']

/-- **Who is left after a pass.** After a pass in which no call failed, everybody whom the agent of the
node lists is admitted, exactly if the node has groups or the agent listed nobody before. -/
theorem syncUsers_leaves_authorised_iff
    (hpass : s.syncUsers users settings n now = (.ok report, s')) (hfailed : report.failed = 0) :
    (∀ name ∈ (s'.get (Endpoint.ofNode n settings).baseUrl).names, users.Authorised n now name) ↔
      n.groups ≠ [] ∨ (s.get (Endpoint.ofNode n settings).baseUrl).users = [] := by
  by_cases hgroups : n.groups = []
  · -- the pass calls nobody, and a node without groups admits nobody
    rw [syncUsers_of_groups_eq_nil hgroups] at hpass
    obtain rfl : s = s' := congrArg Prod.snd hpass
    have hnobody : ∀ name, ¬users.Authorised n now name := by
      rintro name ⟨u, -, -, -, g, hg, -⟩
      rw [hgroups] at hg
      exact List.not_mem_nil hg
    simp only [hgroups, hnobody, Agent.names_eq]
    simp [List.eq_nil_iff_forall_not_mem]
  · have hall := mem_names_syncUsers_iff hgroups hpass hfailed
    exact iff_of_true (fun name hname => (hall name).1 hname) (.inl hgroups)

end Pass

/-- The agent has a user who is banned, and refuses nothing. -/
def bannedAgents : Agents :=
  ({} : Agents).set (Endpoint.ofNode sampleNode {}).baseUrl
    { users := [{ username := "d", secret := "d" }, { username := "c", secret := "c" }] }

theorem syncUsers_leaves_authorised_iff_sample :
    ∃ report s', bannedAgents.syncUsers sampleUsers {} sampleNode ⟨0⟩ = (.ok report, s') ∧ report.failed = 0 ∧
      ((∀ name ∈ (s'.get (Endpoint.ofNode sampleNode {}).baseUrl).names,
          sampleUsers.Authorised sampleNode ⟨0⟩ name) ↔
        sampleNode.groups ≠ [] ∨ (bannedAgents.get (Endpoint.ofNode sampleNode {}).baseUrl).users = []) := by
  have hgroups : sampleNode.groups ≠ [] := by decide
  have hlist : (bannedAgents.get (Endpoint.ofNode sampleNode {}).baseUrl).refuses
      AgentRequest.list.action = false := by
    rw [bannedAgents, get_set]
  have hpass : bannedAgents.syncUsers sampleUsers {} sampleNode ⟨0⟩ = _ := syncUsers_eq hgroups rfl hlist
  exact ⟨_, _, hpass, by decide +kernel, syncUsers_leaves_authorised_iff hpass (by decide +kernel)⟩

/-- A node serves the users of the group 1 and then has its groups taken from it. The pass after that
reports that nothing had to be done and leaves them all on the agent. -/
theorem syncUsers_leaves_unauthorised :
    let served := (({} : Agents).syncUsers sampleUsers {} sampleNode ⟨0⟩).2
    let n := { sampleNode with groups := [] }
    let pass := served.syncUsers sampleUsers {} n ⟨0⟩
    pass.1.toOption = some {} ∧
      (pass.2.get (Endpoint.ofNode n {}).baseUrl).names = ["a", "b", "c"] ∧
      ∀ name ∈ ["a", "b", "c"], ¬sampleUsers.Authorised n ⟨0⟩ name := by
  decide +kernel

end Agents

end ProxyFleet

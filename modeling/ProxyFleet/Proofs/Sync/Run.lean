import Mathlib.Data.Set.Card
import ProxyFleet.Proofs.Agent.Memory
import ProxyFleet.Proofs.Sync.Plan

/-!
# Agents are brought in line

Whatever calls an agent refuses, one pass over its users asks for one change of each name on which
the agent is out of line, and leaves it out of line exactly where a change was refused. A pass over an
agent in line asks for nothing.

* `UserTable.due`, `UserTable.due_eq_some_iff`, `Agent.held` : the secret of a name that an agent
  should hold, and the one that it holds;
* `Agent.held_answer`, `Agents.held_ask` : a change that is called for settles its own name only;
* `Agents.Applied`, `Agents.foldl_ask` : what a run over a plan does;
* `Agents.Reconciled`, `Agents.syncUsers_reconciles` : what a pass does.
-/

namespace ProxyFleet

set_option autoImplicit false

/-! ## What is due and what is held -/

/-- The secret that an agent should hold for a name: that of the user of this name, eligible and in
one of the groups of the node, the last if there are several. -/
def UserTable.due (users : UserTable) (n : Node) (now : Instant) (name : String) : Option String :=
  (((users.inGroups n.groups now).filter (·.isEligible now)).reverse.find? (·.uuid == name)).map
    (expectedSecret n)

/-- Where no two users of the groups have one name, what is due is the secret of the one user. -/
theorem UserTable.due_eq_some_iff {users : UserTable} {n : Node} {now : Instant}
    (h : ((users.inGroups n.groups now).map (·.uuid)).Nodup) {name secret : String} :
    users.due n now name = some secret ↔
      ∃ u ∈ users.inGroups n.groups now, u.isEligible now = true ∧ u.uuid = name ∧
        expectedSecret n u = secret := by
  have hdiff : ((users.inGroups n.groups now).filter (·.isEligible now)).reverse.Pairwise
      fun u v => u.uuid ≠ v.uuid :=
    List.pairwise_reverse.2 (((List.pairwise_map.1 h).filter _).imp Ne.symm)
  simp only [due, Option.map_eq_some_iff, find?_key_eq_some hdiff, List.mem_reverse, List.mem_filter, and_assoc]

theorem find?_expectedUsers (users : UserTable) (n : Node) (now : Instant) :
    (expectedUsers users n now).find? = users.due n now := by
  funext name
  rw [expectedUsers, Secrets.find?_ofList, ← List.map_reverse, Secrets.find?, List.find?_map, Option.map_map]
  rfl

theorem sorted_expectedUsers (users : UserTable) (n : Node) (now : Instant) :
    (expectedUsers users n now).Sorted := .ofList _

namespace Agent

variable {a : Agent} {c : UserChange} {expected : String → Option String}

/-- An agent's users with their secrets, as it lists them. -/
def secrets (a : Agent) : Secrets := a.users.map fun u => (u.username, u.secret)

/-- The secret that an agent holds for a name. -/
def held (a : Agent) : String → Option String := a.secrets.find?

def names (a : Agent) : List String := a.secrets.map (·.1)

theorem find?_ofList_secrets (h : a.names.Nodup) : (Secrets.ofList a.secrets).find? = a.held := by
  funext name
  rw [Secrets.find?_ofList, Secrets.find?_reverse h, held]

theorem secrets_add (a : Agent) (username secret : String) :
    (a.answer (.add username secret)).2.secrets = a.secrets ++ [(username, secret)] := by
  simp [answer, secrets]

theorem secrets_update (a : Agent) (username secret : String) :
    (a.answer (.update username secret)).2.secrets =
      a.secrets.map fun e => if e.1 = username then (e.1, secret) else e := by
  simp only [answer, secrets, List.map_map]
  refine List.map_congr_left fun u _ => ?_
  simp only [Function.comp_apply, beq_iff_eq]
  split_ifs
  · rfl
  · rfl

theorem secrets_delete (a : Agent) (username : String) :
    (a.answer (.delete username)).2.secrets = a.secrets.filter (·.1 != username) := by
  simp only [answer, secrets, List.filter_map]
  rfl

theorem names_add (a : Agent) (username secret : String) :
    (a.answer (.add username secret)).2.names = a.names ++ [username] := by
  rw [names, secrets_add, List.map_append]
  rfl

theorem names_update (a : Agent) (username secret : String) :
    (a.answer (.update username secret)).2.names = a.names := by
  rw [names, secrets_update, List.map_map]
  refine List.map_congr_left fun e _ => ?_
  simp only [Function.comp_apply]
  split_ifs
  · rfl
  · rfl

theorem names_delete (a : Agent) (username : String) :
    (a.answer (.delete username)).2.names = a.names.filter (· != username) := by
  rw [names, secrets_delete, names, List.filter_map]
  rfl

/-- A change that is called for gives its name the secret that is due, and other names keep theirs. -/
theorem held_answer (h : c.Needed expected a.held) (name : String) :
    (a.answer c.request).2.held name = if name = c.username then expected c.username else a.held name := by
  rw [← h.target_eq]
  cases c with
  | add username secret =>
    show _ = if name = username then some secret else a.held name
    rw [held, UserChange.request, secrets_add, Secrets.find?_append, Secrets.find?_cons]
    split_ifs with hname
    · have hnone : a.secrets.find? name = none := hname ▸ h.2
      rw [hnone, Option.none_or]
    · exact Option.or_none
  | update username secret =>
    obtain ⟨-, x, hx, -⟩ := h
    show _ = if name = username then some secret else a.held name
    rw [held, UserChange.request, secrets_update, Secrets.find?_replace]
    split_ifs with hname
    · have hheld : a.secrets.find? name = some x := hname ▸ hx
      rw [hheld, Option.map_some]
    · rfl
  | delete username =>
    rw [held, UserChange.request, secrets_delete, Secrets.find?_remove]
    rfl

/-- After a change that is called for, still no two users have one name. -/
theorem nodup_names_answer (h : c.Needed expected a.held) (hnames : a.names.Nodup) :
    (a.answer c.request).2.names.Nodup := by
  cases c with
  | add username secret =>
    have hnew : username ∉ a.names := Secrets.find?_eq_none_iff.1 h.2
    rw [UserChange.request, names_add, List.nodup_append]
    refine ⟨hnames, List.nodup_singleton _, ?_⟩
    rintro name hname _ hother rfl
    have heq : name = username := List.mem_singleton.1 hother
    exact hnew (heq ▸ hname)
  | update username secret =>
    rw [UserChange.request, names_update]
    exact hnames
  | delete username =>
    rw [UserChange.request, names_delete]
    exact hnames.filter _

end Agent

/-! ## A run over a plan -/

namespace SyncReport

/-- The calls that were made. -/
def total (r : SyncReport) : Nat := r.added + r.updated + r.deleted + r.failed

theorem total_count (r : SyncReport) (c : UserChange) (succeeded : Bool) :
    (r.count c succeeded).total = r.total + 1 := by
  cases succeeded with
  | false =>
    simp only [count, total, Bool.not_false, if_true]
    omega
  | true =>
    cases c with
    | _ =>
      simp only [count, total, Bool.not_true, Bool.false_eq_true, if_false]
      omega

theorem failed_count (r : SyncReport) (c : UserChange) (succeeded : Bool) :
    (r.count c succeeded).failed = r.failed + if succeeded then 0 else 1 := by
  cases succeeded with
  | false => rfl
  | true =>
    cases c with
    | _ => rfl

end SyncReport

namespace Agents

variable {e : Endpoint} {expected : String → Option String} {c : UserChange} {plan : List UserChange}
  {s : Agents} {p p' : SyncReport × Agents}

/-- One change of a plan is asked for. -/
def ask (e : Endpoint) (p : SyncReport × Agents) (c : UserChange) : SyncReport × Agents :=
  (p.1.count c (p.2.call e c.request).1.isOk, (p.2.call e c.request).2)

theorem run_eq_foldl (s : Agents) (e : Endpoint) (plan : List UserChange) :
    s.run e plan = plan.foldl (ask e) ({}, s) := rfl

/-- Whether the agent at an address refuses to make a change. -/
def refuses (s : Agents) (e : Endpoint) (c : UserChange) : Bool :=
  (s.get e.baseUrl).refuses c.request.action

theorem refuses_ask (c d : UserChange) : (ask e p c).2.refuses e d = p.2.refuses e d :=
  congrFun (refuses_call p.2 e c.request) d.request.action

theorem failed_ask (c : UserChange) :
    (ask e p c).1.failed = p.1.failed + if p.2.refuses e c then 1 else 0 := by
  have hok : (p.2.call e c.request).1.isOk = !p.2.refuses e c := isOk_call p.2 e c.request
  rw [ask, SyncReport.failed_count, hok]
  cases p.2.refuses e c with
  | false => rfl
  | true => rfl

theorem held_ask (h : c.Needed expected (p.2.get e.baseUrl).held) (name : String) :
    ((ask e p c).2.get e.baseUrl).held name =
      if name = c.username ∧ p.2.refuses e c = false then expected c.username
      else (p.2.get e.baseUrl).held name := by
  rw [ask, get_call, called, refuses]
  cases (p.2.get e.baseUrl).refuses c.request.action with
  | true => simp
  | false => simp [Agent.held_answer h]

theorem nodup_names_ask (h : c.Needed expected (p.2.get e.baseUrl).held)
    (hnames : (p.2.get e.baseUrl).names.Nodup) : ((ask e p c).2.get e.baseUrl).names.Nodup := by
  rw [ask, get_call, called]
  split_ifs
  · exact hnames
  · exact Agent.nodup_names_answer h hnames

/-- What a run over a plan does: each change is asked for and counted once, and the names of the
changes that are not refused, and only these, get what is due to them. -/
structure Applied (e : Endpoint) (expected : String → Option String) (plan : List UserChange)
    (p p' : SyncReport × Agents) : Prop where
  calls : p'.2.calls = p.2.calls ++ plan.map fun c => ⟨e, c.request.action⟩
  total : p'.1.total = p.1.total + plan.length
  failed : p'.1.failed = p.1.failed + plan.countP (p.2.refuses e)
  names : (p.2.get e.baseUrl).names.Nodup → (p'.2.get e.baseUrl).names.Nodup
  settled : ∀ c ∈ plan, p.2.refuses e c = false →
    (p'.2.get e.baseUrl).held c.username = expected c.username
  kept : ∀ name, (∀ c ∈ plan, c.username = name → p.2.refuses e c = true) →
    (p'.2.get e.baseUrl).held name = (p.2.get e.baseUrl).held name
  others : ∀ url, url ≠ e.baseUrl → p'.2.get url = p.2.get url

/-- A change comes first, of a name that is not changed again. -/
theorem Applied.cons (hc : c.Needed expected (p.2.get e.baseUrl).held)
    (hne : ∀ d ∈ plan, d.username ≠ c.username) (h : Applied e expected plan (ask e p c) p') :
    Applied e expected (c :: plan) p p' where
  calls := by
    rw [h.calls, ask, calls_call, List.append_assoc]
    rfl
  total := by
    rw [h.total, ask, SyncReport.total_count, List.length_cons]
    omega
  failed := by
    have hcongr : plan.countP ((ask e p c).2.refuses e) = plan.countP (p.2.refuses e) :=
      List.countP_congr fun d _ => by rw [refuses_ask]
    rw [h.failed, hcongr, failed_ask, List.countP_cons]
    omega
  names hnames := h.names (nodup_names_ask hc hnames)
  settled d hd hr := by
    rcases List.mem_cons.1 hd with rfl | hd
    · -- what the first change did stays, as no later one is of its name
      rw [h.kept _ fun d' hd' hname => absurd hname (hne d' hd'), held_ask hc, if_pos ⟨rfl, hr⟩]
    · exact h.settled d hd ((refuses_ask c d).trans hr)
  kept name hall := by
    have hrest : ∀ d ∈ plan, d.username = name → (ask e p c).2.refuses e d = true := fun d hd hname =>
      (refuses_ask c d).trans (hall d (List.mem_cons_of_mem c hd) hname)
    rw [h.kept name hrest, held_ask hc, if_neg]
    rintro ⟨rfl, hr⟩
    exact Bool.false_ne_true (hr.symm.trans (hall c List.mem_cons_self rfl))
  others url hurl := (h.others url hurl).trans (get_call_of_ne p.2 e c.request hurl)

theorem foldl_ask (hneeded : ∀ c ∈ plan, c.Needed expected (p.2.get e.baseUrl).held)
    (hnodup : (plan.map UserChange.username).Nodup) :
    Applied e expected plan p (plan.foldl (ask e) p) := by
  induction plan generalizing p with
  | nil => exact ⟨(List.append_nil _).symm, rfl, rfl, id, by simp, fun _ _ => rfl, fun _ _ => rfl⟩
  | cons c plan ih =>
    obtain ⟨hc, hrest⟩ := List.forall_mem_cons.1 hneeded
    obtain ⟨hnew, hnodup⟩ := List.nodup_cons.1 hnodup
    have hne : ∀ d ∈ plan, d.username ≠ c.username := fun d hd hname =>
      hnew (List.mem_map.2 ⟨d, hd, hname⟩)
    -- the first change leaves the other names alone, so that their changes are still called for
    refine Applied.cons hc hne (ih (fun d hd => (hrest d hd).congr ?_) hnodup)
    rw [held_ask hc, if_neg fun hname => hne d hd hname.1]

/-! ## A pass -/

/-- What a pass does to the agent at an address. -/
structure Reconciled (s s' : Agents) (e : Endpoint) (expected : String → Option String)
    (changes : List UserChange) (report : SyncReport) : Prop where
  /-- The changes are those that are called for by what is due and what is held. -/
  needed : ∀ c, c ∈ changes ↔ c.Needed expected (s.get e.baseUrl).held
  /-- No name is changed twice. -/
  once : (changes.map UserChange.username).Nodup
  /-- The users are listed, the changes are asked for, and nothing else is. -/
  calls : s'.calls = s.calls ++
    ⟨e, AgentRequest.list.action⟩ :: changes.map fun c => ⟨e, c.request.action⟩
  /-- As many calls are reported as there are names on which the two differ. -/
  total : report.added + report.updated + report.deleted + report.failed =
    {name | expected name ≠ (s.get e.baseUrl).held name}.ncard
  /-- The failed ones are those that the agent refuses. -/
  failed : report.failed = changes.countP (s.refuses e)
  /-- No two users that the agent then has are of one name. -/
  names : (s'.get e.baseUrl).names.Nodup
  /-- The agent is then out of line where it refused a change. -/
  differs : ∀ name, (s'.get e.baseUrl).held name ≠ expected name ↔
    ∃ c ∈ changes, c.username = name ∧ s.refuses e c = true
  /-- Other agents are left as they were. -/
  others : ∀ url, url ≠ e.baseUrl → s'.get url = s.get url

theorem Reconciled.held_eq {s' : Agents} {changes : List UserChange} {report : SyncReport}
    (h : Reconciled s s' e expected changes report) (hfailed : report.failed = 0) :
    (s'.get e.baseUrl).held = expected := by
  funext name
  by_contra hne
  obtain ⟨c, hc, -, hr⟩ := (h.differs name).1 hne
  have hnone := List.countP_eq_zero.1 (h.failed.symm.trans hfailed)
  exact hnone c hc hr

/-- As many names are out of line as changes are called for. -/
theorem ncard_differing {held : String → Option String} {changes : List UserChange}
    (hneeded : ∀ c, c ∈ changes ↔ c.Needed expected held)
    (honce : (changes.map UserChange.username).Nodup) :
    {name | expected name ≠ held name}.ncard = changes.length := by
  have hset : {name | expected name ≠ held name} = ↑(changes.map UserChange.username).toFinset := by
    ext name
    rw [Set.mem_ofPred_eq, Finset.mem_coe, List.mem_toFinset, List.mem_map]
    constructor
    · intro hne
      obtain ⟨c, hc, hname⟩ := UserChange.exists_needed hne
      exact ⟨c, (hneeded c).2 hc, hname⟩
    · rintro ⟨c, hc, rfl⟩
      exact ((hneeded c).1 hc).ne
  rw [hset, Set.ncard_coe_finset, List.toFinset_card_of_nodup honce, List.length_map]

theorem get_list (s : Agents) (e : Endpoint) : (s.call e .list).2.get e.baseUrl = s.get e.baseUrl := by
  rw [get_call, called]
  exact ite_self _

theorem refuses_list (s : Agents) (e : Endpoint) : (s.call e .list).2.refuses e = s.refuses e := by
  funext c
  rw [refuses, refuses, get_list]

/-- After the users are listed, a run over the changes that are called for brings the agent in line. -/
theorem Applied.reconciled (hneeded : ∀ c, c ∈ plan ↔ c.Needed expected (s.get e.baseUrl).held)
    (honce : (plan.map UserChange.username).Nodup) (hnames : (s.get e.baseUrl).names.Nodup)
    (h : Applied e expected plan ({}, (s.call e .list).2) p') :
    Reconciled s p'.2 e expected plan p'.1 where
  needed := hneeded
  once := honce
  calls := by
    rw [h.calls, calls_call, List.append_assoc]
    rfl
  total := by
    rw [ncard_differing hneeded honce]
    exact h.total.trans (Nat.zero_add _)
  failed := by
    rw [h.failed, refuses_list]
    exact Nat.zero_add _
  names := h.names (by rwa [get_list])
  differs name := by
    constructor
    · intro hne
      by_contra hnone
      -- a name of which no change was refused has what is due to it, be it changed or not
      push Not at hnone
      refine hne ?_
      by_cases hin : ∃ c ∈ plan, c.username = name
      · obtain ⟨c, hc, rfl⟩ := hin
        exact h.settled c hc ((congrFun (refuses_list s e) c).trans (by simpa using hnone c hc rfl))
      · have hkept := h.kept name fun c hc hname => absurd ⟨c, hc, hname⟩ hin
        rw [hkept, get_list]
        by_contra hdiffer
        obtain ⟨c, hc, hname⟩ := UserChange.exists_needed (Ne.symm hdiffer)
        exact hin ⟨c, (hneeded c).2 hc, hname⟩
    · rintro ⟨c, hc, rfl, hr⟩
      have hsame : ∀ d ∈ plan, d.username = c.username → (s.call e .list).2.refuses e d = true := by
        intro d hd hname
        rw [List.inj_on_of_nodup_map honce hd hc hname, refuses_list]
        exact hr
      rw [h.kept c.username hsame, get_list]
      exact ((hneeded c).1 hc).ne.symm
  others url hurl := (h.others url hurl).trans (get_call_of_ne s e .list hurl)

section Pass

variable {users : UserTable} {settings : AgentSettings} {n : Node} {now : Instant}

def planOf (s : Agents) (e : Endpoint) (users : UserTable) (n : Node) (now : Instant) : List UserChange :=
  syncPlan (expectedUsers users n now) (Secrets.ofList (s.get e.baseUrl).secrets)

theorem mem_planOf (c : UserChange) :
    c ∈ s.planOf e users n now ↔
      c.Needed (users.due n now) (Secrets.ofList (s.get e.baseUrl).secrets).find? := by
  rw [planOf, mem_syncPlan_iff (sorted_expectedUsers users n now) (.ofList _), find?_expectedUsers]

theorem mem_planOf_iff (hnames : (s.get e.baseUrl).names.Nodup) (c : UserChange) :
    c ∈ s.planOf e users n now ↔ c.Needed (users.due n now) (s.get e.baseUrl).held := by
  rw [mem_planOf, Agent.find?_ofList_secrets hnames]

theorem nodup_planOf : ((s.planOf e users n now).map UserChange.username).Nodup :=
  nodup_syncPlan (sorted_expectedUsers users n now) (.ofList _)

theorem syncUsers_eq (hgroups : n.groups ≠ []) (he : Endpoint.ofNode n settings = e)
    (hlist : (s.get e.baseUrl).refuses AgentRequest.list.action = false) :
    s.syncUsers users settings n now =
      (.ok ((s.call e .list).2.run e (s.planOf e users n now)).1,
        ((s.call e .list).2.run e (s.planOf e users n now)).2) := by
  have hne : n.groups.isEmpty = false := by simpa using hgroups
  have hcall := call_eq s e .list
  rw [if_neg (by simp [hlist])] at hcall
  simp only [syncUsers, hne, he, hcall]
  rfl

/-- A pass over an agent in line lists its users and does nothing else. -/
theorem syncUsers_of_held_eq (hgroups : n.groups ≠ []) (he : Endpoint.ofNode n settings = e)
    (hnames : (s.get e.baseUrl).names.Nodup)
    (hlist : (s.get e.baseUrl).refuses AgentRequest.list.action = false)
    (hheld : (s.get e.baseUrl).held = users.due n now) :
    s.syncUsers users settings n now = (.ok {}, (s.call e .list).2) := by
  have hplan : s.planOf e users n now = [] := by
    rw [List.eq_nil_iff_forall_not_mem]
    intro c hc
    exact ((mem_planOf_iff hnames c).1 hc).ne (congrFun hheld c.username).symm
  rw [syncUsers_eq hgroups he hlist, hplan]
  rfl

/-- **Passes bring agents in line.** Let a node have groups, and let its agent list users, no two of
one name. Whatever changes the agent refuses, a pass asks for one change of each name on which what is
due and what is held differ, and for no other; it reports as many calls, and those that failed; and
then the agent is out of line on just the names whose change it refused. If it refused none, a later
pass for the same users, when the agent has what it was left with, lists them, asks for no change and
reports that nothing had to be done. -/
theorem syncUsers_reconciles (s : Agents) (users : UserTable) (settings : AgentSettings) (n : Node)
    (now : Instant) (hgroups : n.groups ≠ [])
    (hnames : (s.get (Endpoint.ofNode n settings).baseUrl).names.Nodup)
    (hlist : (s.get (Endpoint.ofNode n settings).baseUrl).refuses AgentRequest.list.action = false) :
    let e := Endpoint.ofNode n settings
    ∃ changes report s', s.syncUsers users settings n now = (.ok report, s') ∧
      Reconciled s s' e (users.due n now) changes report ∧
      (report.failed = 0 → ∀ (s₁ : Agents) (now₁ : Instant),
        (s₁.get e.baseUrl).users = (s'.get e.baseUrl).users →
        (s₁.get e.baseUrl).refuses AgentRequest.list.action = false →
        users.due n now₁ = users.due n now →
        ∃ again s₂, s₁.syncUsers users settings n now₁ = (.ok again, s₂) ∧ again.isNoop = true ∧
          s₂.calls = s₁.calls ++ [⟨e, AgentRequest.list.action⟩] ∧ s₂.get e.baseUrl = s₁.get e.baseUrl) := by
  intro e
  have happlied : Applied e (users.due n now) (s.planOf e users n now) ({}, (s.call e .list).2)
      ((s.call e .list).2.run e (s.planOf e users n now)) := by
    rw [run_eq_foldl]
    refine foldl_ask (fun c hc => ?_) nodup_planOf
    rw [get_list]
    exact (mem_planOf_iff hnames c).1 hc
  have hreconciled := happlied.reconciled (mem_planOf_iff hnames) nodup_planOf hnames
  refine ⟨_, _, _, syncUsers_eq hgroups rfl hlist, hreconciled, fun hfailed s₁ now₁ husers hlist₁ hdue => ?_⟩
  have hsecrets := congrArg (List.map fun u : RemoteUser => (u.username, u.secret)) husers
  have hnames₁ : (s₁.get e.baseUrl).names.Nodup := by
    have := hreconciled.names
    rwa [Agent.names, Agent.secrets, ← hsecrets] at this
  have hheld₁ : (s₁.get e.baseUrl).held = users.due n now₁ := by
    rw [hdue, ← hreconciled.held_eq hfailed, Agent.held, Agent.held, Agent.secrets, hsecrets, Agent.secrets]
  refine ⟨_, _, syncUsers_of_held_eq hgroups rfl hnames₁ hlist₁ hheld₁, by decide, ?_, get_list s₁ e⟩
  exact calls_call s₁ e .list

end Pass

/-- Users of the group 1, one of whom is banned, and one user of another group. -/
def sampleUsers : UserTable :=
  [("a", 1, false), ("b", 1, false), ("c", 1, false), ("d", 1, true), ("e", 2, false)].foldl
    (fun t (uuid, group, banned) => t.insert
      { uuid, tokenHash := uuid, group := some group, quota := 0, banned, expiresAt := none
        speedLimit := none, createdAt := "" }) {}

/-- A node for the group 1. -/
def sampleNode : Node where
  id := 1
  name := "n"
  host := "h"
  port := 10000
  params := .trojan ⟨"secret", {}, none⟩
  rate := .one
  groups := [1]
  agentUrl := none
  agentToken := none
  createdAt := ⟨0⟩
  updatedAt := ⟨0⟩

/-- The agent has an outdated secret for one user, which it refuses to update, and has a user who is
banned. -/
def sampleAgents : Agents :=
  ({} : Agents).set (Endpoint.ofNode sampleNode {}).baseUrl
    { users := [{ username := "d", secret := "d" }, { username := "b", secret := "old" },
        { username := "c", secret := "c" }]
      refuses := fun a => a.name == "update" }

theorem syncUsers_reconciles_sample :
    let e := Endpoint.ofNode sampleNode {}
    sampleNode.groups ≠ [] ∧ (sampleAgents.get e.baseUrl).names.Nodup ∧
    (sampleAgents.get e.baseUrl).refuses AgentRequest.list.action = false ∧
    ∃ changes report s', sampleAgents.syncUsers sampleUsers {} sampleNode ⟨0⟩ = (.ok report, s') ∧
      Reconciled sampleAgents s' e (sampleUsers.due sampleNode ⟨0⟩) changes report ∧
      (report.failed = 0 → ∀ (s₁ : Agents) (now₁ : Instant),
        (s₁.get e.baseUrl).users = (s'.get e.baseUrl).users →
        (s₁.get e.baseUrl).refuses AgentRequest.list.action = false →
        sampleUsers.due sampleNode now₁ = sampleUsers.due sampleNode ⟨0⟩ →
        ∃ again s₂, s₁.syncUsers sampleUsers {} sampleNode now₁ = (.ok again, s₂) ∧ again.isNoop = true ∧
          s₂.calls = s₁.calls ++ [⟨e, AgentRequest.list.action⟩] ∧
          s₂.get e.baseUrl = s₁.get e.baseUrl) := by
  have hgroups : sampleNode.groups ≠ [] := by decide
  have hnames : (sampleAgents.get (Endpoint.ofNode sampleNode {}).baseUrl).names.Nodup := by
    rw [sampleAgents, get_set]
    decide
  have hlist : (sampleAgents.get (Endpoint.ofNode sampleNode {}).baseUrl).refuses
      AgentRequest.list.action = false := by
    rw [sampleAgents, get_set]
    decide
  exact ⟨hgroups, hnames, hlist,
    syncUsers_reconciles sampleAgents sampleUsers {} sampleNode ⟨0⟩ hgroups hnames hlist⟩

/-- One user is added, one is deleted, and one stays outdated. -/
example :
    (sampleAgents.syncUsers sampleUsers {} sampleNode ⟨0⟩).1.toOption =
      some { added := 1, updated := 0, deleted := 1, failed := 1 } := by
  decide +kernel

end Agents

end ProxyFleet

import Mathlib.Data.List.Nodup
import Mathlib.Tactic.Choose
import ProxyFleet.Proofs.Agent.Memory
import ProxyFleet.Sync.Users

/-!
# What is done at one address

What calls one agent only is decided by that agent: its answers, what becomes of it and which calls are
made. So whatever is done at other addresses, before or after, makes no difference to it.

* `Agents.Local` : what is done at an address, as what it makes of the agent there;
* `Local.call`, `Local.bind` : a call is local, and so is what is made of local parts;
* `syncUsers_local` : so is bringing the users of an agent in line;
* `foldl_local` : what is done at different addresses one after the other.
-/

namespace ProxyFleet

set_option autoImplicit false

namespace Agents

variable {β γ : Type} {e : Endpoint}

/-- All that is done is to call the agent at an address, and the agent there decides what comes of it:
`own` gives the answer, the agent afterwards, and what it was asked. -/
structure Local (e : Endpoint) (f : Agents → β × Agents) (own : Agent → β × Agent × List AgentAction) : Prop where
  answer : ∀ s, (f s).1 = (own (s.get e.baseUrl)).1
  agent : ∀ s, (f s).2.get e.baseUrl = (own (s.get e.baseUrl)).2.1
  calls : ∀ s, (f s).2.calls = s.calls ++ (own (s.get e.baseUrl)).2.2.map (AgentCall.mk e)
  others : ∀ s url, url ≠ e.baseUrl → (f s).2.get url = s.get url

namespace Local

theorem congr {f g : Agents → β × Agents} {own : Agent → β × Agent × List AgentAction} (h : ∀ s, f s = g s)
    (hg : Local e g own) : Local e f own := by
  obtain rfl : f = g := funext h
  exact hg

theorem pure (e : Endpoint) (b : β) : Local e (fun s => (b, s)) fun a => (b, a, []) where
  answer _ := rfl
  agent _ := rfl
  calls _ := (List.append_nil _).symm
  others _ _ _ := rfl

theorem call (e : Endpoint) (r : AgentRequest β) : Local e (·.call e r) fun a =>
    (if a.refuses r.action then .error (.status 503 s!"{r.action.name} refused") else .ok (a.answer r).1,
      if a.refuses r.action then a else (a.answer r).2, [r.action]) where
  answer s := by rw [call_eq]
  agent s := get_call s e r
  calls s := calls_call s e r
  others s _ h := get_call_of_ne s e r h

theorem bind {f : Agents → β × Agents} {own : Agent → β × Agent × List AgentAction} {g : β → Agents → γ × Agents}
    {own' : β → Agent → γ × Agent × List AgentAction} (hf : Local e f own) (hg : ∀ b, Local e (g b) (own' b)) :
    Local e (fun s => g (f s).1 (f s).2) fun a =>
      let first := own a
      let rest := own' first.1 first.2.1
      (rest.1, rest.2.1, first.2.2 ++ rest.2.2) where
  answer s := by rw [(hg _).answer, hf.agent, hf.answer]
  agent s := by rw [(hg _).agent, hf.agent, hf.answer]
  calls s := by rw [(hg _).calls, hf.calls, hf.agent, hf.answer, List.map_append, List.append_assoc]
  others s url h := by rw [(hg _).others _ url h, hf.others s url h]

end Local

/-! ## Bringing users in line -/

theorem run_local (e : Endpoint) (plan : List UserChange) (report : SyncReport) :
    ∃ own, Local e (fun s => plan.foldl (fun (report, s) change =>
      let (answer, s) := s.call e change.request
      (report.count change answer.isOk, s)) (report, s)) own := by
  induction plan generalizing report with
  | nil => exact ⟨_, Local.pure e report⟩
  | cons change plan ih =>
    choose own hown using fun answer : Except AgentError Unit => ih (report.count change answer.isOk)
    exact ⟨_, (Local.call e change.request).bind hown⟩

/-- What is done once an agent has said which users it has, or has not. -/
def syncTo (e : Endpoint) (expected : Secrets) :
    Except AgentError (List RemoteUser) → Agents → Except AgentError SyncReport × Agents
  | .error err, s => (.error err, s)
  | .ok held, s =>
    let (report, s) := s.run e (syncPlan expected (Secrets.ofList (held.map fun u => (u.username, u.secret))))
    (.ok report, s)

theorem syncTo_local (e : Endpoint) (expected : Secrets) (answer : Except AgentError (List RemoteUser)) :
    ∃ own, Local e (syncTo e expected answer) own := by
  cases answer with
  | error err => exact ⟨_, Local.pure e _⟩
  | ok held =>
    obtain ⟨own, hrun⟩ := run_local e (syncPlan expected (Secrets.ofList (held.map fun u => (u.username, u.secret)))) {}
    exact ⟨_, hrun.bind fun report => Local.pure e (Except.ok (ε := AgentError) report)⟩

/-- Bringing the users of a node's agent in line is done at its address. -/
theorem syncUsers_local (users : UserTable) (settings : AgentSettings) (n : Node) (now : Instant) :
    ∃ own, Local (Endpoint.ofNode n settings) (fun s => s.syncUsers users settings n now) own := by
  by_cases hgroups : n.groups.isEmpty = true
  · exact ⟨_, (Local.pure _ (Except.ok ({} : SyncReport))).congr fun s => if_pos hgroups⟩
  · choose own hown using syncTo_local (Endpoint.ofNode n settings) (expectedUsers users n now)
    refine ⟨_, ((Local.call (Endpoint.ofNode n settings) .list).bind hown).congr fun s => ?_⟩
    unfold syncUsers
    rw [if_neg hgroups]
    dsimp only
    obtain ⟨answer | held, s'⟩ := s.call (Endpoint.ofNode n settings) .list
    · rfl
    · rfl

/-! ## Different addresses -/

/-- Where different addresses are called one after the other, each agent becomes what it would have become
alone, the calls are those that would have been made alone, one part after the other, and no other agent
is touched. -/
theorem foldl_local {ι : Type} {e : ι → Endpoint} {f : ι → Agents → β × Agents}
    {own : ι → Agent → β × Agent × List AgentAction} (h : ∀ i, Local (e i) (f i) (own i)) {is : List ι}
    (hurls : (is.map fun i => (e i).baseUrl).Nodup) (s : Agents) :
    let s' := is.foldl (fun s i => (f i s).2) s
    s'.calls = s.calls ++ is.flatMap (fun i => (own i (s.get (e i).baseUrl)).2.2.map (AgentCall.mk (e i))) ∧
    (∀ i ∈ is, s'.get (e i).baseUrl = (f i s).2.get (e i).baseUrl) ∧
    ∀ url, url ∉ is.map (fun i => (e i).baseUrl) → s'.get url = s.get url := by
  induction is generalizing s with
  | nil => exact ⟨(List.append_nil _).symm, by simp, fun _ _ => rfl⟩
  | cons i is ih =>
    obtain ⟨hnew, hurls⟩ := List.nodup_cons.1 hurls
    obtain ⟨hcalls, hagents, hothers⟩ := ih hurls (f i s).2
    -- what is done at the first address leaves the agents at the others
    have hsame : ∀ j ∈ is, (f i s).2.get (e j).baseUrl = s.get (e j).baseUrl := fun j hj =>
      (h i).others s _ fun heq => hnew (List.mem_map.2 ⟨j, hj, heq⟩)
    refine ⟨?_, fun j hj => ?_, fun url hurl => ?_⟩
    · have hrest : is.flatMap (fun j => (own j ((f i s).2.get (e j).baseUrl)).2.2.map (AgentCall.mk (e j))) =
          is.flatMap fun j => (own j (s.get (e j).baseUrl)).2.2.map (AgentCall.mk (e j)) :=
        List.flatMap_congr fun j hj => by rw [hsame j hj]
      rw [List.foldl_cons, hcalls, hrest, (h i).calls, List.flatMap_cons, List.append_assoc]
    · rw [List.foldl_cons]
      rcases List.mem_cons.1 hj with rfl | hj
      · exact hothers _ hnew
      · rw [hagents j hj, (h j).agent, (h j).agent, hsame j hj]
    · rw [List.map_cons, List.mem_cons, not_or] at hurl
      rw [List.foldl_cons, hothers url hurl.2, (h i).others s url hurl.1]

end Agents

end ProxyFleet

import Mathlib.Tactic.SplitIfs
import ProxyFleet.Agent.Memory

/-!
# What a call does

A call is recorded, is answered unless the agent refuses it, and touches no other agent.

* `Agents.get_set`, `Agents.get_set_of_ne` : the agents after one of them is put in its place;
* `Agent.refuses_answer` : what an agent refuses stays as it is;
* `Agents.call_eq` : the answer to a call, and the agents after it;
* `Agents.calls_call`, `Agents.get_call`, `Agents.get_call_of_ne`, `Agents.refuses_call` : the record
  of calls, the agent that was called, the others, and what is refused.
-/

namespace ProxyFleet

set_option autoImplicit false

theorem Agent.refuses_answer {α : Type} (a : Agent) (r : AgentRequest α) :
    (a.answer r).2.refuses = a.refuses := by
  cases r with
  | stats clear =>
    cases clear with
    | false => rfl
    | true => rfl
  | _ => rfl

namespace Agents

variable {α : Type} (s : Agents) (e : Endpoint) (r : AgentRequest α)

/-! ## One agent in its place -/

/-- Replacing an agent leaves the other addresses as they are. -/
theorem find?_replaced (entries : List (String × Agent)) (url other : String) (a : Agent) :
    ((entries.map fun p => if p.1 == url then (p.1, a) else (p.1, p.2)).find? (·.1 == other)).map (·.2) =
      (entries.find? (·.1 == other)).map fun p => if other = url then a else p.2 := by
  induction entries with
  | nil => rfl
  | cons p entries ih =>
    obtain ⟨address, b⟩ := p
    by_cases hother : address = other
    · subst hother
      by_cases hurl : address = url
      · simp [hurl]
      · simp [hurl]
    · by_cases hurl : address = url
      · simp [hurl, hurl ▸ hother, ← ih]
      · simp [hurl, hother, ← ih]

theorem find?_set (url other : String) (a : Agent) :
    (s.set url a).find? other = if other = url then some a else s.find? other := by
  unfold set find?
  split_ifs with hany hother hother
  · obtain ⟨p, hmem, hp⟩ := List.any_eq_true.1 hany
    have hsome : (s.agents.find? (·.1 == url)).isSome = true := List.find?_isSome.2 ⟨p, hmem, hp⟩
    obtain ⟨found, hfound⟩ := Option.isSome_iff_exists.1 hsome
    exact (find?_replaced s.agents url other a).trans (by rw [hother, hfound, Option.map_some, if_pos rfl])
  · exact (find?_replaced s.agents url other a).trans (by simp only [if_neg hother])
  · have hnone : s.agents.find? (·.1 == url) = none := by
      rw [List.find?_eq_none]
      exact fun p hmem hp => hany (List.any_eq_true.2 ⟨p, hmem, hp⟩)
    rw [hother, List.find?_append, hnone]
    simp
  · rw [List.find?_append]
    simp [Ne.symm hother]

theorem get_set (url : String) (a : Agent) : (s.set url a).get url = a := by
  rw [get, find?_set, if_pos rfl, Option.getD_some]

theorem get_set_of_ne {url other : String} (a : Agent) (h : other ≠ url) :
    (s.set url a).get other = s.get other := by
  rw [get, find?_set, if_neg h, get]

/-! ## A call -/

/-- The agents with one more call on record. -/
def record (a : AgentAction) : Agents := { s with calls := s.calls ++ [{ endpoint := e, action := a }] }

/-- The agent that is called, after the call; one that it refuses leaves it as it is. -/
def called : Agent :=
  if (s.get e.baseUrl).refuses r.action then s.get e.baseUrl else ((s.get e.baseUrl).answer r).2

theorem call_eq : s.call e r =
    (if (s.get e.baseUrl).refuses r.action then .error (.status 503 s!"{r.action.name} refused")
      else .ok ((s.get e.baseUrl).answer r).1,
     (s.record e r.action).set e.baseUrl (s.called e r)) := by
  by_cases h : (s.get e.baseUrl).refuses r.action
  · rw [call, called, if_pos h, if_pos h, if_pos h]
    rfl
  · rw [call, called, if_neg h, if_neg h, if_neg h]
    rfl

theorem isOk_call : (s.call e r).1.isOk = !(s.get e.baseUrl).refuses r.action := by
  rw [call_eq]
  cases (s.get e.baseUrl).refuses r.action with
  | false => rfl
  | true => rfl

theorem calls_call : (s.call e r).2.calls = s.calls ++ [⟨e, r.action⟩] := by
  rw [call_eq]
  rfl

theorem get_call : (s.call e r).2.get e.baseUrl = s.called e r := by
  rw [call_eq, get_set]

theorem get_call_of_ne {url : String} (h : url ≠ e.baseUrl) : (s.call e r).2.get url = s.get url := by
  rw [call_eq]
  exact get_set_of_ne _ _ h

theorem refuses_call : ((s.call e r).2.get e.baseUrl).refuses = (s.get e.baseUrl).refuses := by
  rw [get_call, called]
  split_ifs
  · rfl
  · exact Agent.refuses_answer _ r

end Agents

end ProxyFleet

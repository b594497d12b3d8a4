import ProxyFleet.Proofs.Nodes.Changes
import ProxyFleet.Proofs.Ports.Run

/-!
# Runs of calls on the roster

* `RosterCall`, `Roster.call`, `Roster.run` : a call on the roster, and calls one after the other;
* `Roster.Sound` : held and recorded ports agree, and nodes are numbered; every run from nothing
  keeps this (`Sound.run`).
-/

namespace ProxyFleet

set_option autoImplicit false

/-- A call on the roster. Which ports are refused may be another with each call. -/
inductive RosterCall where
  | create (refused : UInt16 → Bool) (request : NodeRequest)
  | update (refused : UInt16 → Bool) (id : Int) (change : NodeChange)
  | delete (id : Int)
  /-- Start anew over what is stored, with settings and a range. -/
  | reopen (settings : EngineSettings) (range : PortSettings)
  /-- A call on the ports alone. -/
  | ports (call : PortCall)

namespace Roster

/-- The roster without nodes. -/
def empty (settings : EngineSettings) (range : PortSettings) : Roster := { settings, ports := { range } }

/-- What a call leaves. -/
def call (s : Roster) (now : Instant) : RosterCall → Roster
  | .create refused request => (s.create refused request now).2
  | .update refused id change => (s.update refused id change now).2
  | .delete id => (s.delete id now).2
  | .reopen settings range => (s.reopen settings range now).2
  | .ports c => { s with ports := (s.ports.call now c).2 }

/-- Calls one after the other, each at its moment. -/
def run (s : Roster) (calls : List (Instant × RosterCall)) : Roster :=
  calls.foldl (fun s c => s.call c.1 c.2) s

/-- What every call keeps: held and recorded ports agree, and nodes are numbered. -/
structure Sound (s : Roster) : Prop where
  ports : s.ports.Agrees
  nodes : s.nodes.Numbered

variable {s : Roster} {refused : UInt16 → Bool}

theorem Creates.sound {r : Except NodeError Node × Roster} (h : s.Sound) (hc : Creates s refused r) :
    r.2.Sound := by
  cases hc with
  | failed e s' rows numbered agrees range table => exact ⟨agrees, numbered⟩
  | added n s' row port free id_eq nodes agrees range table =>
    refine ⟨agrees, ?_⟩
    rw [nodes]
    exact h.nodes.insert row

theorem Updates.sound {id : Int} {move : Option (UInt16 × UInt16)} {r : Except NodeError Node × Roster}
    (h : s.Sound) (hu : Updates s refused id move r) : r.2.Sound := by
  cases hu with
  | rejected e s' nodes ports => exact ⟨ports ▸ h.ports, nodes ▸ h.nodes⟩
  | rewritten n s' row get port id_eq nodes ports =>
    exact ⟨ports ▸ h.ports, nodes ▸ h.nodes.modifyId n.id _⟩
  | failed e s' row old wanted get port ne nodes agrees range table => exact ⟨agrees, nodes ▸ h.nodes⟩
  | moved n s' row old get port ne free id_eq nodes agrees range table =>
    exact ⟨agrees, nodes ▸ h.nodes.modifyId n.id _⟩

namespace Sound

theorem empty (settings : EngineSettings) (range : PortSettings) : Sound (Roster.empty settings range) :=
  ⟨Ports.Agrees.initial range, Table.Numbered.empty⟩

theorem update (h : s.Sound) (refused : UInt16 → Bool) (id : Int) (c : NodeChange) (now : Instant) :
    (s.update refused id c now).2.Sound :=
  (update_updates h.ports refused id c now).sound h

theorem delete (h : s.Sound) (id : Int) (now : Instant) : (s.delete id now).2.Sound := by
  rcases delete_cases h.ports id now with ⟨e, heq⟩ | ⟨ports, s', heq, hnodes, hagrees, -⟩
  · rw [heq]
    exact h
  · rw [heq]
    exact ⟨hagrees, hnodes ▸ h.nodes.eraseId id⟩

/-- Each call keeps the roster sound. -/
theorem call (h : s.Sound) (now : Instant) (c : RosterCall) : (s.call now c).Sound := by
  cases c with
  | create refused request => exact (create_creates h.ports h.nodes refused request now).sound h
  | update refused id change => exact h.update refused id change now
  | delete id => exact h.delete id now
  | reopen settings range =>
    obtain ⟨n, ports, heq, hagrees, -⟩ := reopen_eq h.ports settings range now
    rw [Roster.call, heq]
    exact ⟨hagrees, h.nodes⟩
  | ports c => exact ⟨(h.ports.call now c).1, h.nodes⟩

theorem run (h : s.Sound) (calls : List (Instant × RosterCall)) : (s.run calls).Sound := by
  induction calls generalizing s with
  | nil => exact h
  | cons c calls ih => exact ih (h.call c.1 c.2)

end Sound

/-! ## A sample -/

/-- A range of eleven ports. -/
def sampleRange : PortSettings := { first := 10000, last := 10010 }

/-- A request for a node that is accepted, with any of the ports. -/
def sampleRequest (name : String) : NodeRequest where
  name := name
  host := "127.0.0.1"
  protocol := "shadowsocks"
  params := [("method", .str "aes-128-gcm"), ("password", .str "secret")]

end Roster

end ProxyFleet

import ProxyFleet.Proofs.Fleet.Balance
import ProxyFleet.Proofs.Traffic.Rising

/-!
# When a pull lowers nothing

What a node's agent has counted is added with its sign, wherever one of its two counters is above zero.
So a pull can take from what a user has used, from the user's days and from the node's.

* `Fleet.pull_rises_iff` : when no account is less after a pull;
* `Fleet.Upward`, `Upward.call`, `Upward.run` : nothing staged or counted is negative, as every run keeps it
  in which nothing else is staged and no agent counts anything else;
* `Fleet.pulls_rise` : after such a run no pulls lower anything.
-/

namespace ProxyFleet

set_option autoImplicit false

namespace Fleet

variable {s : Fleet}

/-! ## One pull -/

/-- **When a pull lowers nothing.** After any run, no account of a user, of a user's day or of a node's day is
less after a pull, exactly if what is counted of each known user at one rate on one day and what is counted of
the node on one day are not negative, taken together. If nothing is staged for the node and its agent answers,
that is what it has of each known user, in entries with a counter above zero, and what it has in total, unless
neither counter is above zero. -/
theorem pull_rises_iff (settings : Settings) (calls : List (Instant × FleetCall)) (n : Node) (now : Instant) :
    let s := (empty settings).run calls
    let rises := ∀ a, s.ledger.balance a ≤ (s.pullNode n now).2.ledger.balance a
    (rises ↔ s.ledger.Raises (Collection.counted (s := ⟨s.ledger, s.agents⟩) s.settings.agents n now)) ∧
    ∀ stats, s.ledger.staged n.id = .ok [] →
      (s.agents.call (Endpoint.ofNode n s.settings.agents) (.stats true)).1 = .ok stats →
      (rises ↔
        (∀ uuid, (s.ledger.userId? uuid).isSome = true →
          0 ≤ ((stats.users.filter fun u => u.username == uuid && (0 < u.uplinkBytes || 0 < u.downlinkBytes)).map
            fun u => (rated u.uplinkBytes n.effectiveRate, rated u.downlinkBytes n.effectiveRate)).sum) ∧
        (0 < rated stats.uplinkBytes n.effectiveRate ∨ 0 < rated stats.downlinkBytes n.effectiveRate →
          0 ≤ rated stats.uplinkBytes n.effectiveRate ∧ 0 ≤ rated stats.downlinkBytes n.effectiveRate)) := by
  intro s rises
  obtain ⟨-, hkeyed⟩ := run_ledger_sound settings calls
  have hrises := Collection.pull_balance_iff (s := ⟨s.ledger, s.agents⟩) s.settings.agents n now hkeyed
  refine ⟨hrises, fun stats hstaged hstats => hrises.trans ?_⟩
  have hcounted := Collection.counted_of_unstaged (s := ⟨s.ledger, s.agents⟩) s.settings.agents n now hstaged hstats
  rw [hcounted, Ledger.raises_singleton]
  simp only [← ofUser_ratedTraffic]
  exact and_congr_right fun _ => (ratedTraffic n stats).booked_nonneg_iff

/-- One user, of whom the agent of a node has counted something. -/
def sampleCounted (stats : RemoteStats) : List (Instant × FleetCall) :=
  [.addUser "u" "t" {},
    .agents (({} : Agents).set (Endpoint.ofNode Agents.sampleNode {}).baseUrl { stats })].map (⟨0⟩, ·)

theorem pull_rises_iff_sampleCounted :
    let stats : RemoteStats := ⟨10, 5, [{ username := "u", uplinkBytes := 10, downlinkBytes := 5 }]⟩
    let s := (empty {}).run (sampleCounted stats)
    s.ledger.staged 1 = .ok [] ∧
    (s.agents.call (Endpoint.ofNode Agents.sampleNode s.settings.agents) (.stats true)).1 = .ok stats ∧
    ∀ a, s.ledger.balance a ≤ (s.pullNode Agents.sampleNode ⟨0⟩).2.ledger.balance a := by
  intro stats s
  have hstaged : s.ledger.staged 1 = .ok [] := rfl
  have hstats : (s.agents.call (Endpoint.ofNode Agents.sampleNode s.settings.agents) (.stats true)).1 = .ok stats :=
    eq_ok_of_toOption (by decide +kernel)
  refine ⟨hstaged, hstats, ?_⟩
  refine ((pull_rises_iff {} (sampleCounted stats) Agents.sampleNode ⟨0⟩).2 stats hstaged hstats).2 ⟨?_, ?_⟩
  · intro uuid _
    by_cases huuid : "u" = uuid
    · subst huuid
      decide +kernel
    · simp [stats, huuid]
  · decide +kernel

/-- An agent counts in both directions, and then one counter above zero and the other below. -/
theorem pull_lowers :
    let n := Agents.sampleNode
    let counted (upload download : Int) : FleetCall := .agents (({} : Agents).set (Endpoint.ofNode n {}).baseUrl
      { stats := ⟨upload, download, [{ username := "u", uplinkBytes := upload, downlinkBytes := download }]⟩ })
    let s := (empty {}).run ([.addUser "u" "t" {}, counted 10 20, .pull n, counted 10 (-5)].map (⟨0⟩, ·))
    let accounts : List Account :=
      [.user 1, .userDay (DayKey.of 1 n.effectiveRate (Instant.day ⟨0⟩)), .nodeDay 1 (Instant.day ⟨0⟩)]
    accounts.map s.ledger.balance = [(10, 20), (10, 20), (10, 20)] ∧
    accounts.map (s.pullNode n ⟨0⟩).2.ledger.balance = [(20, 15), (20, 15), (20, 15)] := by
  decide +kernel

end Fleet

/-! ## Runs without negative counters -/

/-- A call that stages no negative counter, and brings no agent that has one. -/
def FleetCall.Upward : FleetCall → Prop
  | stage _ _ traffic => traffic.Upward
  | agents held => ∀ url, (held.get url).stats.Upward
  | roster _ | addUser _ _ _ | commit _ | pull _ | pullAll => True

namespace Fleet

/-- No counter that is staged is negative, nor any that an agent has. -/
structure Upward (s : Fleet) : Prop where
  numbered : s.ledger.stagedRows.Numbered
  staged : ∀ e ∈ s.ledger.stagedRows.rows, ∃ t : Traffic, t.Upward ∧ e.2.traffic = .ofText t.toJson.compact
  agents : ∀ url, (s.agents.get url).stats.Upward

end Fleet

theorem RemoteStats.Upward.none : ({} : RemoteStats).Upward := ⟨le_rfl, le_rfl, by simp⟩

/-- An agent that is asked has counted what it had, or nothing. -/
theorem Agents.upward_call {agents : Agents} (h : ∀ url, (agents.get url).stats.Upward) (e : Endpoint) (url : String) :
    ((agents.call e (.stats true)).2.get url).stats.Upward := by
  by_cases hurl : url = e.baseUrl
  · subst hurl
    rw [get_call, called]
    split_ifs
    · exact h e.baseUrl
    · exact .none
  · rw [get_call_of_ne _ _ _ hurl]
    exact h url

namespace Fleet

variable {s : Fleet}

namespace Upward

theorem empty (settings : Settings) : (Fleet.empty settings).Upward :=
  ⟨Table.Numbered.empty, by simp [Fleet.empty], fun _ => .none⟩

theorem counted (h : s.Upward) (n : Node) (now : Instant) :
    ∀ b ∈ Collection.counted (s := ⟨s.ledger, s.agents⟩) s.settings.agents n now, b.traffic.Upward := by
  have hstaged : Yields (s.ledger.staged n.id) fun bs => ∀ b ∈ bs, b.traffic.Upward := by
    refine Yields.mapM fun e he => (Yields.any _).mapError.bind fun day _ => ?_
    obtain ⟨t, ht, htraffic⟩ := h.staged e (List.mem_filter.1 he).1
    rw [htraffic]
    refine t.column_yields.bind fun t' ht' => .ok ?_
    obtain ⟨rate, rfl⟩ := ht'
    exact ⟨⟨ht.total.upload, ht.total.download⟩, ht.users⟩
  unfold Collection.counted
  cases hbs : s.ledger.staged n.id with
  | error e => simp
  | ok bs =>
    dsimp only
    have hasked := Agents.call_eq s.agents (Endpoint.ofNode n s.settings.agents) (.stats true)
    rw [hasked]
    split_ifs
    · exact hstaged bs hbs
    · intro b hb
      rcases List.mem_append.1 hb with hb | hb
      · exact hstaged bs hbs b hb
      · rw [List.mem_singleton.1 hb]
        exact (h.agents _).rated n

theorem pull (h : s.Upward) (n : Node) (now : Instant) : (s.pullNode n now).2.Upward := by
  cases hbs : s.ledger.staged n.id with
  | error e =>
    rw [pullNode, Collection.pull_of_illegible (s := ⟨s.ledger, s.agents⟩) _ n now hbs]
    exact h
  | ok bs =>
    obtain ⟨hrows, hnumbered⟩ :=
      Collection.stagedRows_pull (s := ⟨s.ledger, s.agents⟩) s.settings.agents n now h.numbered hbs
    have hagents := Collection.agents_pull (s := ⟨s.ledger, s.agents⟩) s.settings.agents n now hbs
    refine ⟨hnumbered, fun e he => ?_, fun url => ?_⟩
    · have he : e ∈ (Collection.pull ⟨s.ledger, s.agents⟩ s.settings.agents n now).2.ledger.stagedRows.rows := he
      rw [hrows] at he
      exact h.staged e (List.mem_filter.1 he).1
    · show ((Collection.pull ⟨s.ledger, s.agents⟩ s.settings.agents n now).2.agents.get url).stats.Upward
      rw [hagents]
      exact Agents.upward_call h.agents _ url

theorem call (h : s.Upward) (now : Instant) {c : FleetCall} (hc : c.Upward) : (s.call now c).Upward := by
  cases c with
  | roster c => exact ⟨h.numbered, h.staged, h.agents⟩
  | addUser uuid token draft =>
    rw [Fleet.call]
    cases s.ledger.users.add uuid token draft now with
    | error e => exact h
    | ok added => exact ⟨h.numbered, h.staged, h.agents⟩
  | stage node day traffic =>
    refine ⟨h.numbered.insert _, fun e he => ?_, h.agents⟩
    rcases List.mem_append.1 he with he | he
    · exact h.staged e he
    · rw [List.mem_singleton.1 he]
      exact ⟨traffic, hc, (StagedRow.Keeps.staged 0 _ _ _ _).traffic⟩
  | commit b =>
    -- whatever the batch is, all that becomes of the staged ones is that one goes
    have herased := Ledger.stagedRows_commit s.ledger b
    refine ⟨herased ▸ h.numbered.eraseId b.id, fun e he => ?_, h.agents⟩
    have he : e ∈ (s.ledger.commit b).2.stagedRows.rows := he
    rw [herased, Table.rows_eraseId] at he
    exact h.staged e (List.mem_filter.1 he).1
  | pull n => exact h.pull n now
  | pullAll => exact forEachNode_keeps (fun s n hs => hs.pull n now) now h
  | agents agents => exact ⟨h.numbered, h.staged, hc⟩

theorem run (h : s.Upward) {calls : List (Instant × FleetCall)} (hcalls : ∀ c ∈ calls, c.2.Upward) :
    (s.run calls).Upward :=
  run_keeps (P := Upward) (fun _ c hc hs => hs.call c.1 (hcalls c hc)) h

theorem balance_le_pull (h : s.Upward) (hkeyed : s.ledger.Keyed) (n : Node) (now : Instant) (a : Account) :
    s.ledger.balance a ≤ (s.pullNode n now).2.ledger.balance a := by
  have hbooked := Collection.booked_counted (s := ⟨s.ledger, s.agents⟩) s.settings.agents n now hkeyed
  refine hbooked.rises_iff.2 (fun a => List.sum_nonneg fun x hx => ?_) a
  obtain ⟨b, hb, rfl⟩ := List.mem_map.1 hx
  exact TrafficBatch.share_nonneg (h.counted n now b hb) s.ledger a

theorem balance_le_pulls (h : s.Upward) (hkeyed : s.ledger.Keyed) (pulls : List (Instant × Node)) (a : Account) :
    s.ledger.balance a ≤ (s.run (pulls.map fun p => (p.1, .pull p.2))).ledger.balance a := by
  induction pulls generalizing s with
  | nil => exact le_rfl
  | cons p pulls ih =>
    have hnext : (s.pullNode p.2 p.1).2.ledger.Keyed :=
      Collection.keyed_pull (s := ⟨s.ledger, s.agents⟩) s.settings.agents p.2 p.1 hkeyed
    exact (h.balance_le_pull hkeyed p.2 p.1 a).trans (ih (h.pull p.2 p.1) hnext)

end Upward

/-- After a run in which no negative counter is staged and no agent has one, pulls from any nodes, one after
the other, lower nothing. -/
theorem pulls_rise (settings : Settings) (calls : List (Instant × FleetCall)) (hcalls : ∀ c ∈ calls, c.2.Upward)
    (pulls : List (Instant × Node)) (a : Account) :
    let s := (empty settings).run calls
    s.ledger.balance a ≤ (s.run (pulls.map fun p => (p.1, .pull p.2))).ledger.balance a :=
  ((Upward.empty settings).run hcalls).balance_le_pulls (run_ledger_sound settings calls).2 pulls a

end Fleet

end ProxyFleet

import ProxyFleet.Proofs.Subscription.Breaks
import ProxyFleet.Proofs.Subscription.Outline

/-!
# One line for each server

A list of servers that is written line by line has a line for each server that the client can express, in
order, unless a text that is put into a line has a line break in it.

* `Server.Admitted` : name, host and parameters are those of a node that can be added;
* `Unbroken` : nothing that a format shows of servers, and that nothing restricts, has a line break in it;
* `Surge.sectionOf_linesOf_iff` : when the section on proxies has one line each;
* `lines_one_each_iff` : when the lists of all formats have.
-/

namespace ProxyFleet.Subscription

set_option autoImplicit false

open Text (Broken AnyBroken linesOf)

/-! ## Servers as they are added -/

/-- Name, host and parameters are those of a node that could be added. -/
def Server.Admitted (s : Server) : Prop :=
  ∃ (roster : Roster) (refused : UInt16 → Bool) (request : NodeRequest) (now : Instant) (n : Node),
    (roster.create refused request now).1 = .ok n ∧ n.name = s.name ∧ n.host = s.host ∧ n.params = s.params

theorem Server.Admitted.checked {s : Server} (h : s.Admitted) : s.params.Normal ∧ Net.isHost s.host = true := by
  obtain ⟨roster, refused, request, now, n, hcreate, -, hhost, hparams⟩ := h
  have henrolls := roster.create_enrolls refused request now
  generalize roster.create refused request now = result at hcreate henrolls
  cases henrolls with
  | refused | portless | undone => cases hcreate
  | enrolled m names params requested valid ports =>
    obtain rfl : m = n := Except.ok.inj hcreate
    rw [← hparams, ← hhost]
    have hnormal : m.params.Normal := Roster.parseParams_normal params
    have hname : m.name ≠ "" ∧ m.name ∉ Engine.reservedTags := by
      obtain ⟨hname, hreserved, -⟩ := checkNames_eq_ok_iff.1 names
      rw [requested]
      exact unreserved_of_trim hname hreserved
    exact ⟨hnormal, ((Roster.checkDocument_eq_ok_iff hnormal.offerable hname).1 valid).1⟩

/-! ## One line each -/

section Lines

variable {servers : List Server}

theorem checked_forUser {uuid : String} (hadmitted : ∀ s ∈ servers, s.Admitted) (huuid : Text.isUuid uuid = true) :
    ∀ s ∈ servers.map (·.forUser uuid), s.Checked := by
  refine List.forall_mem_map.2 fun s hs => ?_
  obtain ⟨hnormal, hhost⟩ := (hadmitted s hs).checked
  exact ⟨hhost, not_anyBroken_checkedTexts hnormal huuid⟩

/-- Neither the names of the servers that a format can express have a line break in them, nor the texts of
their parameters that the format shows and nothing restricts. -/
def Unbroken (format : Format) (freeTexts : Params → List String) (servers : List Server) : Prop :=
  ∀ s ∈ expressed format servers, ∀ text ∈ s.name :: freeTexts s.params, ¬Broken text

section List

variable {format : Format} {line? : Server → Option String} {freeTexts : Params → List String}
  (hline : ∀ s, shown? format s = (line? s).map .line)
  (hbroken : ∀ s ∈ servers, ∀ line, line? s = some line →
    (Broken line ↔ AnyBroken (s.name :: freeTexts s.params)))

include hline hbroken

theorem forall_not_broken_iff :
    (∀ line ∈ servers.filterMap line?, ¬Broken line) ↔ Unbroken format freeTexts servers := by
  rw [Unbroken, expressed_eq_filter hline]
  constructor
  · intro h s hs text htext hbreak
    obtain ⟨hmem, hsome⟩ := List.mem_filter.1 hs
    obtain ⟨line, hs⟩ := Option.isSome_iff_exists.1 hsome
    exact h line (List.mem_filterMap.2 ⟨s, hmem, hs⟩) ((hbroken s hmem line hs).2 ⟨text, htext, hbreak⟩)
  · intro h line hmemline hbreak
    obtain ⟨s, hmem, hs⟩ := List.mem_filterMap.1 hmemline
    obtain ⟨text, htext, hbreak⟩ := (hbroken s hmem line hs).1 hbreak
    exact h s (List.mem_filter.2 ⟨hmem, by simp [hs]⟩) text htext hbreak

/-- A list of lines is had back from its text exactly if it has lines and none has a line break. -/
theorem linesOf_list_iff :
    linesOf ("\n".intercalate (servers.filterMap line?) ++ "\n") = servers.filterMap line? ↔
      expressed format servers ≠ [] ∧ Unbroken format freeTexts servers := by
  have hempty : servers.filterMap line? = [] ↔ expressed format servers = [] := by
    simp [expressed_eq_filter hline, List.filterMap_eq_nil_iff, List.filter_eq_nil_iff]
  rw [Text.linesOf_joined_iff, forall_not_broken_iff hline hbroken, ne_eq, hempty]

end List

namespace Surge

theorem mem_of_mem_sectionOf {heading line : String} {lines : List String} (h : line ∈ sectionOf heading lines) :
    line ∈ lines :=
  List.dropWhile_subset _ (List.drop_subset _ _ (List.takeWhile_subset _ (List.mem_of_mem_filter h)))

variable {client : Client}

theorem not_broken_groups {proxies : List Proxy} (h : ∀ name ∈ proxies.map (·.name), ¬Broken name) :
    ∀ line ∈ (groups proxies).map Group.line, ¬Broken line := by
  have hjoined : ∀ {parts : List String}, (∀ part ∈ parts, ¬Broken part) → ¬Broken (", ".intercalate parts) := by
    intro parts hparts hbreak
    obtain ⟨part, hpart, hbreak⟩ := (Text.broken_intercalate (by decide) parts).1 hbreak
    exact hparts part hpart hbreak
  have hselect : ∀ part ∈ ["Proxy = select", "Auto"], ¬Broken part := by decide
  have hdirect : ∀ part ∈ ["DIRECT"], ¬Broken part := by decide
  have htest : ¬Broken "Auto = url-test" := by decide
  have hsettings : ∀ part ∈ ["url=http://www.gstatic.com/generate_204", "interval=300", "tolerance=50"],
      ¬Broken part := by decide
  refine List.forall_mem_map.2 (List.forall_mem_cons.2 ⟨hjoined ?_, ?_⟩)
  · simp only [List.append_nil]
    exact List.forall_mem_append.2 ⟨List.forall_mem_append.2 ⟨hselect, h⟩, hdirect⟩
  · split_ifs
    · simp
    · refine List.forall_mem_singleton.2 (hjoined ?_)
      exact List.forall_mem_cons.2 ⟨htest, List.forall_mem_append.2 ⟨h, hsettings⟩⟩

/-- The lines of proxies are had back from the text of a profile exactly if none has a line break in it. -/
theorem sectionOf_linesOf_iff (hchecked : ∀ s ∈ servers, s.Checked) :
    sectionOf "[Proxy]" (linesOf (render client servers)) =
        "DIRECT = direct" :: servers.filterMap (line? client) ↔
      Unbroken client.format freeTexts servers := by
  have hlines := forall_not_broken_iff (shown?_format client)
    fun s hs line hline => broken_line_iff (hchecked s hs) hline
  constructor
  · intro h
    refine hlines.1 fun line hline => ?_
    exact Text.not_broken_of_mem_linesOf (mem_of_mem_sectionOf (h ▸ List.mem_cons_of_mem _ hline))
  · intro h
    have hproxies : ∀ line ∈ proxyLines (profile client servers), ¬Broken line := by
      rw [proxyLines, map_line_profile]
      exact List.forall_mem_cons.2 ⟨by decide, hlines.2 h⟩
    have hnames : ∀ name ∈ (profile client servers).map (·.name), ¬Broken name := by
      rw [map_name_profile]
      exact List.forall_mem_map.2 fun s hs => h s hs s.name List.mem_cons_self
    have hall : ∀ line ∈ lines (profile client servers), ¬Broken line := by
      simp only [lines, List.forall_mem_append]
      exact ⟨⟨⟨⟨by decide, hproxies⟩, by decide⟩, not_broken_groups hnames⟩, by decide⟩
    rw [render, Text.linesOf_ended_iff.2 hall, sectionOf_proxies, proxyLines, map_line_profile]

end Surge

end Lines

/-- **When lists of servers have one line each.** Let servers have names, hosts and parameters as they are
accepted when a node is added, and let a user have a uuid. The section on proxies of the text that the user
gets for Surge or Surfboard has the line of the direct way and one for each server that the client can
express, in order, exactly if neither the names of these servers nor the texts of their parameters that the
format shows and nothing restricts have a line break in them. The lines of the texts for Quantumult X and
Loon are one for each such server exactly if, besides, there is such a server: without one there is an
empty line. -/
theorem lines_one_each_iff {servers : List Server} {uuid : String} (hadmitted : ∀ s ∈ servers, s.Admitted)
    (huuid : Text.isUuid uuid = true) (settings : EngineSettings) :
    let shown := servers.map (·.forUser uuid)
    (∀ client : Surge.Client,
      Surge.sectionOf "[Proxy]" (linesOf (render client.format servers uuid settings)) =
          "DIRECT = direct" :: shown.filterMap (Surge.line? client) ↔
        Unbroken client.format Surge.freeTexts shown) ∧
    (linesOf (render .quantumultX servers uuid settings) = shown.filterMap QuantumultX.line? ↔
      expressed .quantumultX shown ≠ [] ∧ Unbroken .quantumultX QuantumultX.freeTexts shown) ∧
    (linesOf (render .loon servers uuid settings) = shown.filterMap Loon.line? ↔
      expressed .loon shown ≠ [] ∧ Unbroken .loon Loon.freeTexts shown) := by
  intro shown
  have hchecked := checked_forUser hadmitted huuid
  refine ⟨fun client => ?_, ?_, ?_⟩
  · rw [Surge.render_eq]
    exact Surge.sectionOf_linesOf_iff hchecked
  · exact linesOf_list_iff (fun _ => rfl)
      fun s hs line hline => QuantumultX.broken_line_iff (hchecked s hs) hline
  · exact linesOf_list_iff (fun _ => rfl)
      fun s hs line hline => Loon.broken_line_iff (hchecked s hs) hline

/-- A shadowsocks server of this name. -/
def sampleNamed (name : String) : Server :=
  ⟨name, "127.0.0.1", 443, .shadowsocks ⟨"aes-128-gcm", "secret", none, none⟩⟩

theorem admitted_sampleNamed {name : String}
    (h : let result := (Roster.empty {} Roster.sampleRange).create (fun _ => false) (Roster.sampleRequest name) ⟨0⟩
      result.1.toOption.map (fun n => (n.name, n.host, n.params)) =
        some (name, (sampleNamed name).host, (sampleNamed name).params)) : (sampleNamed name).Admitted := by
  refine ⟨Roster.empty {} Roster.sampleRange, fun _ => false, Roster.sampleRequest name, ⟨0⟩, ?_⟩
  obtain ⟨n, hn, heq⟩ := Option.map_eq_some_iff.1 h
  obtain ⟨hname, hrest⟩ := Prod.mk.inj heq
  obtain ⟨hhost, hparams⟩ := Prod.mk.inj hrest
  refine ⟨n, ?_, hname, hhost, hparams⟩
  generalize ((Roster.empty {} Roster.sampleRange).create _ _ _).1 = result at hn
  cases result with
  | error e => cases hn
  | ok m => rw [Option.some.inj hn]

theorem lines_one_each_iff_sample :
    (∀ s ∈ [sampleNamed "a"], s.Admitted) ∧ Text.isUuid sampleMember.uuid = true ∧
    let shown := [sampleNamed "a"].map (·.forUser sampleMember.uuid)
    (∀ client : Surge.Client,
      Surge.sectionOf "[Proxy]" (linesOf (render client.format [sampleNamed "a"] sampleMember.uuid {})) =
          "DIRECT = direct" :: shown.filterMap (Surge.line? client) ↔
        Unbroken client.format Surge.freeTexts shown) ∧
    (linesOf (render .quantumultX [sampleNamed "a"] sampleMember.uuid {}) = shown.filterMap QuantumultX.line? ↔
      expressed .quantumultX shown ≠ [] ∧ Unbroken .quantumultX QuantumultX.freeTexts shown) ∧
    (linesOf (render .loon [sampleNamed "a"] sampleMember.uuid {}) = shown.filterMap Loon.line? ↔
      expressed .loon shown ≠ [] ∧ Unbroken .loon Loon.freeTexts shown) := by
  have hadmitted : ∀ s ∈ [sampleNamed "a"], s.Admitted :=
    List.forall_mem_singleton.2 (admitted_sampleNamed (by decide +kernel))
  have huuid : Text.isUuid sampleMember.uuid = true := by decide
  exact ⟨hadmitted, huuid, lines_one_each_iff hadmitted huuid {}⟩

/-- Without a server there is an empty line. -/
example : linesOf (render .loon [] sampleMember.uuid {}) = [""] := by decide

/-- A name with a line break in it is accepted, and its server is on two lines. -/
theorem lines_of_broken_name :
    (sampleNamed "a\nb").Admitted ∧ Text.isUuid sampleMember.uuid = true ∧
    (expressed .loon ([sampleNamed "a\nb"].map (·.forUser sampleMember.uuid))).length = 1 ∧
    linesOf (render .loon [sampleNamed "a\nb"] sampleMember.uuid {}) =
      ["a", "b = Shadowsocks,127.0.0.1,443,aes-128-gcm,\"aaaaaaaa-0000-4000-8000-000000000001\",udp=true"] :=
  ⟨admitted_sampleNamed (by decide +kernel), by decide, by decide +kernel, by decide +kernel⟩

end ProxyFleet.Subscription

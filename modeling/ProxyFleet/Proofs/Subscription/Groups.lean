import ProxyFleet.Proofs.Subscription.Document
import ProxyFleet.Proofs.Subscription.Outline
import ProxyFleet.Proofs.Text.Lines

/-!
# Names in the groups of profiles

A profile refers to proxies and groups by their names. The groups have names of their own, which no name
of a server was kept apart from, and of the two groups the first refers to the second, also where a Surge
profile lacks the second.

* `Outline.Resolved` : every member of a group is defined;
* `Surge.outline?`, `Surge.outline?_lines` : what a client makes of the lines of a profile;
* `Surge.groups_resolve_iff` : when the groups of a Surge profile refer to what it defines;
* `Outline.Unambiguous` : every name stands for one proxy, one group or what is built in;
* `Clash.subscription_unambiguous_iff` : when that holds of a Clash profile.
-/

namespace ProxyFleet.Subscription

set_option autoImplicit false

/-- Every member of a group is a proxy of the profile, a group of it, or built in. -/
def Outline.Resolved (builtin : List String) (o : Outline) : Prop :=
  ∀ g ∈ o.groups, ∀ member ∈ g.members, member ∈ o.proxies ∨ member ∈ o.groups.map (·.name) ∨ member ∈ builtin

/-- The group of this name lists a proxy as often as the profile defines it. -/
def Outline.Counts (o : Outline) (group proxy : String) : Prop :=
  ∃ g ∈ o.groups, g.name = group ∧ g.members.count proxy = o.proxies.count proxy

/-! ## Surge and Surfboard -/

namespace Surge

/-- Characters as a text, without the blanks around them. -/
def trimmed (cs : List Char) : String := String.ofList (Text.trimChars cs)

/-- The name of what a line defines. -/
def readName? (line : String) : Option String := do
  let (name, _) ← Text.splitOnce? '=' line.toList
  return trimmed name

/-- What a client makes of the line of a group; what has an equals sign is a setting. -/
def readGroup? (line : String) : Option Outline.Group := do
  let (name, value) ← Text.splitOnce? '=' line.toList
  match Text.splitChars ',' value with
  | kind :: items => some ⟨trimmed name, trimmed kind, (items.filter ('=' ∉ ·)).map trimmed⟩
  | [] => none

/-- What a client makes of the lines of a profile. -/
def outline? (lines : List String) : Option Outline := do
  let proxies ← (sectionOf "[Proxy]" lines).mapM readName?
  return ⟨proxies, ← (sectionOf "[Proxy Group]" lines).mapM readGroup?⟩

/-- A name that can stand in a list of names. -/
def Listable (name : String) : Prop := ',' ∉ name.toList ∧ '=' ∉ name.toList

instance (name : String) : Decidable (Listable name) := inferInstanceAs (Decidable (_ ∧ _))

variable {name kind : String}

theorem trimmed_cons (s : String) : trimmed (' ' :: s.toList) = Text.trim s := by
  rw [trimmed, Text.trimChars_cons (by decide), Text.trim]

theorem trimmed_concat (s : String) : trimmed (s.toList ++ [' ']) = Text.trim s := by
  rw [trimmed, Text.trimChars_concat (by decide), Text.trim]

/-- A line is a name, an equals sign, and a list of fields. -/
theorem toList_setting (name kind : String) (fields : List String) :
    (", ".intercalate (s!"{name} = {kind}" :: fields)).toList =
      (name.toList ++ [' ']) ++ '=' :: (" " ++ ", ".intercalate (kind :: fields)).toList := by
  have hhead : s!"{name} = {kind}" = (name ++ " = ") ++ kind := rfl
  rw [hhead, Text.intercalate_append_cons]
  simp

theorem splitOnce?_setting (h : '=' ∉ name.toList) (kind : String) (fields : List String) :
    Text.splitOnce? '=' (", ".intercalate (s!"{name} = {kind}" :: fields)).toList =
      some (name.toList ++ [' '], (" " ++ ", ".intercalate (kind :: fields)).toList) := by
  rw [toList_setting]
  exact Text.splitOnce?_of_notMem (by simpa using h) _

theorem readName?_setting (h : '=' ∉ name.toList) (kind : String) (fields : List String) :
    readName? (", ".intercalate (s!"{name} = {kind}" :: fields)) = some (Text.trim name) := by
  rw [readName?, splitOnce?_setting h, ← trimmed_concat]
  rfl

/-- A group whose line can be read. -/
structure Group.Readable (g : Group) : Prop where
  name : '=' ∉ g.name.toList
  kind : ',' ∉ g.kind.toList
  members : ∀ member ∈ g.members, Listable member
  settings : ∀ setting ∈ g.settings, ',' ∉ setting.toList ∧ '=' ∈ setting.toList

theorem readGroup?_line {g : Group} (h : g.Readable) :
    readGroup? g.line = some ⟨Text.trim g.name, Text.trim g.kind, g.members.map Text.trim⟩ := by
  have hitems : ∀ s ∈ g.kind :: (g.members ++ g.settings), ',' ∉ s.toList :=
    List.forall_mem_cons.2 ⟨h.kind, List.forall_mem_append.2
      ⟨fun m hm => (h.members m hm).1, fun s hs => (h.settings s hs).1⟩⟩
  have hmembers : (g.members.map fun s => ' ' :: s.toList).filter ('=' ∉ ·) =
      g.members.map fun s => ' ' :: s.toList := by
    refine List.filter_eq_self.2 (List.forall_mem_map.2 fun m hm => ?_)
    simpa using (h.members m hm).2
  have hsettings : (g.settings.map fun s => ' ' :: s.toList).filter ('=' ∉ ·) = [] := by
    refine List.filter_eq_nil_iff.2 (List.forall_mem_map.2 fun s hs => ?_)
    simpa using (h.settings s hs).2
  rw [readGroup?, Group.line, List.cons_append, splitOnce?_setting h.name]
  simp only [Option.bind_eq_bind, Option.bind_some]
  rw [Text.splitChars_listed (List.cons_ne_nil _ _) hitems]
  simp only [List.map_cons, List.map_append, List.filter_append, hmembers, hsettings, List.append_nil,
    List.map_map, Function.comp_def, trimmed_cons, trimmed_concat]

variable {client : Client} {servers : List Server}

/-- The outline of a profile with these proxies. The group that takes the fastest is there if there are
any, and the other one refers to it in any case. -/
def outlineOf (names : List String) : Outline :=
  ⟨"DIRECT" :: names, ⟨"Proxy", "select", "Auto" :: names ++ ["DIRECT"]⟩ ::
    if names = [] then [] else [⟨"Auto", "url-test", names⟩]⟩

theorem mapM_readName?_proxyLines (hnames : ∀ s ∈ servers, Listable s.name) :
    (proxyLines (profile client servers)).mapM readName? =
      some ("DIRECT" :: (expressed client.format servers).map (Text.trim ·.name)) := by
  have hread : ∀ p ∈ profile client servers, (readName? ∘ (·.line)) p = some (Text.trim p.name) := by
    intro p hp
    obtain ⟨s, hs, hsome⟩ := List.mem_filterMap.1 hp
    obtain ⟨line, hline, rfl⟩ := Option.map_eq_some_iff.1 hsome
    obtain ⟨⟨kind, fields⟩, -, rfl⟩ := Option.map_eq_some_iff.1 hline
    exact readName?_setting (hnames s hs).2 _ _
  have hnamed : (profile client servers).map (Text.trim ·.name) =
      (expressed client.format servers).map (Text.trim ·.name) := by
    have h := congrArg (List.map Text.trim) (@map_name_profile client servers)
    simpa only [List.map_map, Function.comp_def] using h
  have hdirect : readName? "DIRECT = direct" = some "DIRECT" := by decide
  rw [proxyLines, List.mapM_cons, hdirect, List.mapM_map, Text.mapM_eq_some hread, hnamed]
  rfl

theorem readable_groups {proxies : List Proxy} (h : ∀ p ∈ proxies, Listable p.name) :
    ∀ g ∈ groups proxies, g.Readable := by
  have hproxy : Listable "Proxy" := by decide
  have hselect : Listable "select" := by decide
  have hauto : Listable "Auto" := by decide
  have htest : Listable "url-test" := by decide
  have hdirect : ∀ name ∈ ["DIRECT"], Listable name := by decide
  have hsettings : ∀ setting ∈ ["url=http://www.gstatic.com/generate_204", "interval=300", "tolerance=50"],
      ',' ∉ setting.toList ∧ '=' ∈ setting.toList := by decide
  have hnames : ∀ name ∈ proxies.map (·.name), Listable name := List.forall_mem_map.2 h
  refine List.forall_mem_cons.2 ⟨⟨hproxy.2, hselect.1, ?_, by simp⟩, ?_⟩
  · exact List.forall_mem_append.2 ⟨List.forall_mem_cons.2 ⟨hauto, hnames⟩, hdirect⟩
  · split_ifs
    · simp
    · exact List.forall_mem_singleton.2 ⟨hauto.2, htest.1, hnames, hsettings⟩

theorem mapM_readGroup?_groups (hnames : ∀ s ∈ servers, Listable s.name) :
    ((groups (profile client servers)).map Group.line).mapM readGroup? =
      some (outlineOf ((expressed client.format servers).map (Text.trim ·.name))).groups := by
  have hlistable : ∀ p ∈ profile client servers, Listable p.name := by
    intro p hp
    obtain ⟨s, hs, hsome⟩ := List.mem_filterMap.1 hp
    obtain ⟨line, -, rfl⟩ := Option.map_eq_some_iff.1 hsome
    exact hnames s hs
  have hread : ∀ g ∈ groups (profile client servers), (readGroup? ∘ Group.line) g =
      some ⟨Text.trim g.name, Text.trim g.kind, g.members.map Text.trim⟩ :=
    fun g hg => readGroup?_line (readable_groups hlistable g hg)
  have hfixed : ∀ s ∈ ["Proxy", "select", "Auto", "url-test", "DIRECT"], Text.trim s = s := by decide
  simp only [List.forall_mem_cons] at hfixed
  rw [List.mapM_map, Text.mapM_eq_some hread, groups, map_name_profile, outlineOf]
  by_cases hnone : expressed client.format servers = []
  · simp [hnone, hfixed]
  · simp [hnone, hfixed, Function.comp_def]

/-- What a client makes of the lines of a profile. -/
theorem outline?_lines (hnames : ∀ s ∈ servers, Listable s.name) :
    outline? (lines (profile client servers)) =
      some (outlineOf ((expressed client.format servers).map (Text.trim ·.name))) := by
  rw [outline?, sectionOf_proxies, sectionOf_groups, mapM_readName?_proxyLines hnames, mapM_readGroup?_groups hnames]
  rfl

/-- The group that takes the fastest is missing exactly if no proxy is defined. -/
theorem resolved_outlineOf_iff {names : List String} : (outlineOf names).Resolved [] ↔ names ≠ [] := by
  constructor
  · rintro h rfl
    -- the first group refers to the other one, which is not there
    have hauto := h _ List.mem_cons_self "Auto" List.mem_cons_self
    exact absurd hauto (by decide)
  · intro hne g hg member hmember
    rw [outlineOf, if_neg hne] at hg
    rcases List.mem_cons.1 hg with rfl | hg
    · have hlisted : member = "Auto" ∨ member ∈ names ∨ member = "DIRECT" := by simpa using hmember
      rcases hlisted with rfl | hname | rfl
      · exact .inr (.inl (by simp [outlineOf, hne]))
      · exact .inl (List.mem_cons_of_mem _ hname)
      · exact .inl List.mem_cons_self
    · obtain rfl := List.mem_singleton.1 hg
      exact .inl (List.mem_cons_of_mem _ hmember)

/-- The first group names the other group and the direct way beside the proxies, so that a proxy of one of
these names is listed once more. -/
theorem counts_outlineOf_iff {names : List String} {name : String} (h : name ∈ names) :
    ((outlineOf names).Counts "Proxy" name ∧ (outlineOf names).Counts "Auto" name) ↔ name ∉ ["Auto", "DIRECT"] := by
  have hne : names ≠ [] := List.ne_nil_of_mem h
  have hproxy : (outlineOf names).Counts "Proxy" name ↔
      ("Auto" :: names ++ ["DIRECT"]).count name = ("DIRECT" :: names).count name := by
    simp [Outline.Counts, outlineOf, hne]
  have hauto : (outlineOf names).Counts "Auto" name ↔ names.count name = ("DIRECT" :: names).count name := by
    simp [Outline.Counts, outlineOf, hne]
  rw [hproxy, hauto]
  simp only [List.cons_append, List.count_cons, List.count_append, List.count_nil, List.mem_cons, List.not_mem_nil,
    or_false, not_or, beq_iff_eq, eq_comm (a := name)]
  split_ifs
  all_goals simp_all

/-- **When the groups of a Surge profile refer to what it defines.** Let the names of servers have no comma
and no equals sign in them, so that a client can read what it is given. Every member of a group is defined
in the profile exactly if there is a server that the client can express. Of these, each is a member of both
groups as often as it has a line, exactly if it does not have the name of the second group or of the direct
way. -/
theorem groups_resolve_iff (client : Client) {servers : List Server} (hnames : ∀ s ∈ servers, Listable s.name) :
    ∃ o, outline? (lines (profile client servers)) = some o ∧
      (o.Resolved [] ↔ expressed client.format servers ≠ []) ∧
      ∀ s ∈ expressed client.format servers,
        (o.Counts "Proxy" (Text.trim s.name) ∧ o.Counts "Auto" (Text.trim s.name)) ↔
          Text.trim s.name ∉ ["Auto", "DIRECT"] := by
  refine ⟨_, outline?_lines hnames, ?_, fun s hs => counts_outlineOf_iff (List.mem_map_of_mem hs)⟩
  rw [resolved_outlineOf_iff, ne_eq, List.map_eq_nil_iff]

/-- A trojan server. -/
def sampleTrojan : Server := ⟨"a", "127.0.0.1", 443, .trojan ⟨"secret", {}, none⟩⟩

theorem groups_resolve_iff_sampleTrojan :
    (∀ s ∈ [sampleTrojan], Listable s.name) ∧
    ∃ o, outline? (lines (profile .surge [sampleTrojan])) = some o ∧
      (o.Resolved [] ↔ expressed Client.surge.format [sampleTrojan] ≠ []) ∧
      ∀ s ∈ expressed Client.surge.format [sampleTrojan],
        (o.Counts "Proxy" (Text.trim s.name) ∧ o.Counts "Auto" (Text.trim s.name)) ↔
          Text.trim s.name ∉ ["Auto", "DIRECT"] := by
  have hnames : ∀ s ∈ [sampleTrojan], Listable s.name := by decide
  exact ⟨hnames, groups_resolve_iff .surge hnames⟩

/-- A profile without servers refers to a group that it does not define. -/
theorem groups_of_no_servers :
    ∃ o, outline? (lines (profile .surge [])) = some o ∧ ¬o.Resolved [] :=
  ⟨_, outline?_lines (by simp), fun h => resolved_outlineOf_iff.1 h rfl⟩

end Surge

/-! ## Clash -/

/-- Every name stands for one thing: proxies have different names, which no group and nothing that is built
in has; and each group lists every proxy once, in order, beside groups other than itself and what is built
in. -/
structure Outline.Unambiguous (builtin : List String) (o : Outline) : Prop where
  distinct : o.proxies.Nodup
  apart : ∀ name ∈ o.proxies, name ∉ o.groups.map (·.name) ∧ name ∉ builtin
  complete : ∀ g ∈ o.groups, g.members.filter (· ∈ o.proxies) = o.proxies
  resolved : o.Resolved builtin
  irreflexive : ∀ g ∈ o.groups, g.name ∉ g.members

namespace Clash

theorem unambiguous_outlineOf_iff {names : List String} :
    (outlineOf names).Unambiguous ["DIRECT"] ↔ names.Nodup ∧ ∀ name ∈ names, name ∉ ["Proxy", "Auto", "DIRECT"] := by
  constructor
  · intro h
    refine ⟨h.distinct, fun name hname hmem => ?_⟩
    obtain ⟨hgroup, hdirect⟩ := h.apart name hname
    rcases List.mem_append.1 (show name ∈ ["Proxy", "Auto"] ++ ["DIRECT"] from hmem) with hmem | hmem
    · exact hgroup hmem
    · exact hdirect hmem
  · rintro ⟨hnodup, hfree⟩
    have hproxy : "Proxy" ∉ names := fun hmem => hfree _ hmem (by decide)
    have hauto : "Auto" ∉ names := fun hmem => hfree _ hmem (by decide)
    have hdirect : "DIRECT" ∉ names := fun hmem => hfree _ hmem (by decide)
    have hall : names.filter (· ∈ names) = names := List.filter_eq_self.2 fun _ hname => decide_eq_true hname
    constructor
    case distinct => exact hnodup
    case apart =>
      intro name hname
      have hnot := hfree name hname
      simp only [List.mem_cons, not_or] at hnot
      exact ⟨by simp [outlineOf, hnot], by simp [hnot]⟩
    case complete =>
      refine List.forall_mem_cons.2 ⟨?_, List.forall_mem_singleton.2 hall⟩
      show ("Auto" :: (names ++ ["DIRECT"])).filter (· ∈ names) = names
      rw [List.filter_cons_of_neg (by simpa using hauto), List.filter_append, hall]
      simp [hdirect]
    case resolved =>
      refine List.forall_mem_cons.2 ⟨fun member hmember => ?_, List.forall_mem_singleton.2 fun _ => .inl⟩
      have hlisted : member = "Auto" ∨ member ∈ names ∨ member = "DIRECT" := by simpa using hmember
      rcases hlisted with rfl | hname | rfl
      · exact .inr (.inl (by simp [outlineOf]))
      · exact .inl hname
      · exact .inr (.inr (by simp))
    case irreflexive => simp [outlineOf, hproxy, hauto]

/-- **When the names of a Clash profile are unambiguous.** Let no two nodes have one name. In the profile of
a user of either dialect, every name stands for one thing, and the groups list all proxies beside groups and
the direct way, exactly if no node that the dialect can express has the name of a group or of the direct
way. -/
theorem subscription_unambiguous_iff {nodes : List Node} (hnames : (nodes.map (·.name)).Nodup) (u : User)
    (now : Instant) (dialect : Dialect) (settings : EngineSettings) :
    let servers := (offered nodes u now).map Node.toServer
    let fields := documentFields dialect (servers.map (·.forUser u.uuid))
    Subscription.render dialect.format servers u.uuid settings = Yaml.document fields ∧
    ∃ o, outline? (.map fields) = some o ∧
      (o.Unambiguous ["DIRECT"] ↔ ∀ name ∈ o.proxies, name ∉ ["Proxy", "Auto", "DIRECT"]) := by
  intro servers fields
  refine ⟨render_eq_document dialect servers u.uuid settings, _, outline?_document dialect _, ?_⟩
  have hoffered : (offered nodes u now).Sublist nodes := by
    unfold offered
    split_ifs
    · exact List.filter_sublist
    · exact List.nil_sublist _
  have hservers : (servers.map (·.forUser u.uuid)).map (·.name) = (offered nodes u now).map (·.name) := by
    simp only [servers, List.map_map, Function.comp_def, Server.forUser, Node.toServer]
  have hnodup : ((expressed dialect.format (servers.map (·.forUser u.uuid))).map (·.name)).Nodup :=
    hnames.sublist (((expressed_sublist _ _).map _).trans (hservers ▸ hoffered.map _))
  rw [unambiguous_outlineOf_iff, and_iff_right hnodup]
  rfl

theorem subscription_unambiguous_iff_sample :
    ([sampleKeyNode].map (·.name)).Nodup ∧
    let servers := (offered [sampleKeyNode] sampleUser ⟨0⟩).map Node.toServer
    let fields := documentFields .extended (servers.map (·.forUser sampleUser.uuid))
    Subscription.render Dialect.extended.format servers sampleUser.uuid {} = Yaml.document fields ∧
    ∃ o, outline? (.map fields) = some o ∧
      (o.Unambiguous ["DIRECT"] ↔ ∀ name ∈ o.proxies, name ∉ ["Proxy", "Auto", "DIRECT"]) := by
  have hnames : ([sampleKeyNode].map (·.name)).Nodup := by simp
  exact ⟨hnames, subscription_unambiguous_iff hnames sampleUser ⟨0⟩ .extended {}⟩

/-- Two nodes are added, one of which has the name of a group. The profile of a user who is offered both
has a proxy and a group of one name, and the group lists itself. -/
theorem subscription_of_group_name :
    let s := (Roster.empty {} Roster.sampleRange).run (twoNodes "Auto" "b")
    ∃ nodes, s.nodes.list ⟨0⟩ = .ok nodes ∧ nodes.map (·.name) = ["Auto", "b"] ∧
      sampleMember.isEligible ⟨0⟩ = true ∧ ∀ dialect,
      let servers := (offered nodes sampleMember ⟨0⟩).map Node.toServer
      let fields := documentFields dialect (servers.map (·.forUser sampleMember.uuid))
      ∃ o, outline? (.map fields) = some o ∧ ¬o.Unambiguous ["DIRECT"] := by
  intro s
  have hstores : s.Stores :=
    (Roster.Stores.empty {} _).run (Roster.Sound.empty {} _) (groupsFit_twoNodes "Auto" "b")
  obtain ⟨nodes, hlist, -⟩ := NodeTable.exists_list hstores ⟨0⟩
  let shown (nodes : List Node) : List Server :=
    ((offered nodes sampleMember ⟨0⟩).map Node.toServer).map (·.forUser sampleMember.uuid)
  have hnames : (s.nodes.list ⟨0⟩).toOption.map (fun nodes => nodes.map (·.name)) = some ["Auto", "b"] := by
    decide +kernel
  have hproxies : ∀ dialect : Dialect, (s.nodes.list ⟨0⟩).toOption.map
      (fun nodes => (expressed dialect.format (shown nodes)).map (·.name)) = some ["Auto", "b"] := by
    intro dialect
    cases dialect with
    | _ => decide +kernel
  rw [hlist] at hnames hproxies
  refine ⟨nodes, hlist, Option.some.inj hnames, by decide, fun dialect => ?_⟩
  refine ⟨_, outline?_document dialect _, fun h => ?_⟩
  have hlisted : (expressed dialect.format (shown nodes)).map (·.name) = ["Auto", "b"] :=
    Option.some.inj (hproxies dialect)
  have hmem : "Auto" ∈ (expressed dialect.format (shown nodes)).map (·.name) := by simp [hlisted]
  exact (unambiguous_outlineOf_iff.1 h).2 "Auto" hmem (by decide)

end Clash

end ProxyFleet.Subscription

import ProxyFleet.Proofs.Subscription.Entry
import ProxyFleet.Proofs.Text.Joined
import ProxyFleet.Proofs.Text.Split

/-!
# What profiles list

A Clash profile is a document, and a profile of Surge or Surfboard is sections of lines. Either lists the
servers that its format can express, in order, and puts their names into groups; and what the smaller
format of a pair can express the larger one can.

* `expressed` : the servers that a format can express;
* `Outline` : the proxies and the groups of a profile, by their names;
* `Clash.outline?`, `Clash.outline?_document` : what a client makes of a document;
* `Surge.sectionOf`, `Surge.sectionOf_proxies`, `Surge.sectionOf_groups` : the lines of a section;
* `profiles_nested` : the larger formats include the smaller ones.
-/

namespace ProxyFleet

set_option autoImplicit false

namespace Yaml

/-- The value of a field of a map. -/
def get? (key : String) : Yaml → Option Yaml
  | .map fields => (fields.find? (·.1 == key)).map (·.2)
  | _ => none

/-- A text. -/
def text? : Yaml → Option String
  | .text s => some s
  | _ => none

/-- The items of a list. -/
def items? : Yaml → Option (List Yaml)
  | .list items => some items
  | _ => none

theorem get?_append_of_ne {key : String} {front : Fields} (h : ∀ field ∈ front, field.1 ≠ key) (fields : Fields) :
    (Yaml.map (front ++ fields)).get? key = (Yaml.map fields).get? key := by
  have hfront : front.find? (·.1 == key) = none := by simpa using h
  rw [get?, List.find?_append, hfront, Option.none_or, get?]

theorem mapM_text?_texts (ss : List String) : (ss.map Yaml.text).mapM text? = some ss := by
  have hread : ∀ s ∈ ss, (text? ∘ Yaml.text) s = some (id s) := fun _ _ => rfl
  rw [List.mapM_map, Text.mapM_eq_some hread, List.map_id]

end Yaml

namespace Subscription

/-! ## Servers that a format can express -/

/-- The servers that a format can express, in order. -/
def expressed (format : Format) (servers : List Server) : List Server :=
  servers.filter fun s => (shown? format s).isSome

theorem expressed_sublist (format : Format) (servers : List Server) : (expressed format servers).Sublist servers :=
  List.filter_sublist

theorem expressed_eq_filter {α : Type} {format : Format} {show? : Server → Option α} {wrap : α → Entry}
    (h : ∀ s, shown? format s = (show? s).map wrap) (servers : List Server) :
    expressed format servers = servers.filter fun s => (show? s).isSome := by
  simp only [expressed, h, Option.isSome_map]

theorem map_filter_isSome {α β γ : Type} (f : α → Option β) (g : α → γ) (l : List α) :
    (l.filter fun a => (f a).isSome).map g = l.filterMap fun a => (f a).map fun _ => g a := by
  induction l with
  | nil => rfl
  | cons a l ih =>
    cases hf : f a with
    | _ => simp [hf, ih]

theorem sublist_filterMap {α β : Type} {f g : α → Option β} (h : ∀ a b, f a = some b → g a = some b) (l : List α) :
    (l.filterMap f).Sublist (l.filterMap g) := by
  have hfilter : l.filterMap f = (l.filter fun a => (f a).isSome).filterMap g := by
    rw [List.filterMap_filter]
    refine List.filterMap_congr fun a _ => ?_
    cases hf : f a with
    | none => rfl
    | some b => simp [h a b hf]
  rw [hfilter]
  exact List.filter_sublist.filterMap g

/-! ## Outlines -/

/-- A group of a profile: its name, how it chooses, and among whom. -/
structure Outline.Group where
  name : String
  kind : String
  members : List String
  deriving DecidableEq

/-- The proxies that a profile defines, by their names, and its groups. -/
structure Outline where
  proxies : List String
  groups : List Outline.Group
  deriving DecidableEq

/-! ## Clash -/

namespace Clash

variable (dialect : Dialect) (servers : List Server)

/-- The fields of the document of a profile. -/
def documentFields : Yaml.Fields :=
  let proxies := profile dialect servers
  [("mixed-port", .number 7890), ("allow-lan", .bool false), ("mode", .text "rule"),
    ("log-level", .text "info"), ("proxies", .list (proxies.map fun p => .map p.fields)),
    ("proxy-groups", .list ((groups proxies).map Group.toYaml)), ("rules", Yaml.texts rules)]

theorem render_eq_document (uuid : String) (settings : EngineSettings) :
    Subscription.render dialect.format servers uuid settings =
      Yaml.document (documentFields dialect (servers.map (·.forUser uuid))) := by
  cases dialect with
  | _ => rfl

/-- The name of a proxy or a group. -/
def readName? (v : Yaml) : Option String := v.get? "name" >>= Yaml.text?

/-- What a client makes of a group. -/
def readGroup? (v : Yaml) : Option Outline.Group := do
  let name ← readName? v
  let kind ← v.get? "type" >>= Yaml.text?
  let members ← v.get? "proxies" >>= Yaml.items?
  return ⟨name, kind, ← members.mapM Yaml.text?⟩

/-- What a client makes of a document. -/
def outline? (doc : Yaml) : Option Outline := do
  let proxies ← doc.get? "proxies" >>= Yaml.items?
  let groups ← doc.get? "proxy-groups" >>= Yaml.items?
  return ⟨← proxies.mapM readName?, ← groups.mapM readGroup?⟩

/-- The outline of a profile with these proxies: one group to choose from and one that takes the fastest. -/
def outlineOf (names : List String) : Outline :=
  ⟨names, [⟨"Proxy", "select", "Auto" :: names ++ ["DIRECT"]⟩, ⟨"Auto", "url-test", names⟩]⟩

variable {dialect servers}

theorem prefix_sharedListing? {s : Server} {fields : Yaml.Fields} (h : sharedListing? dialect s = some fields) :
    ∃ kind, baseFields s kind <+: fields := by
  unfold sharedListing? at h
  split at h
  case h_4 => cases h
  case h_1 =>
    split_ifs at h
    obtain ⟨plugin, -, rfl⟩ := Option.map_eq_some_iff.1 h
    exact ⟨"ss", by simp only [List.append_assoc, List.prefix_append]⟩
  all_goals
    split_ifs at h
    obtain rfl := Option.some.inj h
    simp only [List.append_assoc]
    exact ⟨_, List.prefix_append _ _⟩

theorem prefix_extendedListing? {s : Server} {fields : Yaml.Fields} (h : extendedListing? s = some fields) :
    ∃ kind, baseFields s kind <+: fields := by
  unfold extendedListing? at h
  split at h
  case h_6 => cases h
  all_goals
    obtain rfl := Option.some.inj h
    simp only [List.append_assoc]
    exact ⟨_, List.prefix_append _ _⟩

/-- Whatever the protocol, an entry starts with what every entry starts with. -/
theorem prefix_listing? {s : Server} {fields : Yaml.Fields} (h : listing? dialect s = some fields) :
    ∃ kind, baseFields s kind <+: fields := by
  rcases Option.or_eq_some_iff.1 h with hshared | ⟨-, hextended⟩
  · exact prefix_sharedListing? hshared
  · split_ifs at hextended
    exact prefix_extendedListing? hextended

theorem readName?_of_listing {s : Server} {fields : Yaml.Fields} (h : listing? dialect s = some fields) :
    readName? (.map fields) = some s.name := by
  obtain ⟨kind, rest, rfl⟩ := prefix_listing? h
  rfl

theorem mapM_readName?_profile (dialect : Dialect) (servers : List Server) :
    ((profile dialect servers).map fun p => Yaml.map p.fields).mapM readName? =
      some ((profile dialect servers).map (·.name)) := by
  rw [List.mapM_map]
  refine Text.mapM_eq_some fun p hp => ?_
  obtain ⟨s, -, hs⟩ := List.mem_filterMap.1 hp
  obtain ⟨fields, hfields, rfl⟩ := Option.map_eq_some_iff.1 hs
  exact readName?_of_listing hfields

theorem map_name_profile (dialect : Dialect) (servers : List Server) :
    (profile dialect servers).map (·.name) = (expressed dialect.format servers).map (·.name) := by
  rw [expressed_eq_filter (shown?_format dialect), map_filter_isSome, profile, List.map_filterMap]
  simp only [Option.map_map, Function.comp_def]

theorem readGroup?_toYaml (g : Group) : readGroup? g.toYaml = some ⟨g.name, g.kind, g.members⟩ := by
  have hread : readGroup? g.toYaml =
      (g.members.map Yaml.text).mapM Yaml.text? >>= fun members => some ⟨g.name, g.kind, members⟩ := rfl
  rw [hread, Yaml.mapM_text?_texts]
  rfl

theorem mapM_readGroup?_groups (gs : List Group) :
    (gs.map Group.toYaml).mapM readGroup? = some (gs.map fun g => ⟨g.name, g.kind, g.members⟩) := by
  rw [List.mapM_map]
  exact Text.mapM_eq_some fun g _ => readGroup?_toYaml g

/-- The proxies of a document are the servers that its dialect can express, and both groups hold them. -/
theorem outline?_document (dialect : Dialect) (servers : List Server) :
    outline? (.map (documentFields dialect servers)) =
      some (outlineOf ((expressed dialect.format servers).map (·.name))) := by
  have hread : outline? (.map (documentFields dialect servers)) = (do
      let names ← ((profile dialect servers).map fun p => Yaml.map p.fields).mapM readName?
      let gs ← ((groups (profile dialect servers)).map Group.toYaml).mapM readGroup?
      return ⟨names, gs⟩) := rfl
  rw [hread, mapM_readName?_profile, mapM_readGroup?_groups, ← map_name_profile]
  rfl

theorem isSome_sharedListing?_extended {s : Server} (h : (sharedListing? .plain s).isSome = true) :
    (sharedListing? .extended s).isSome = true := by
  cases hparams : s.params with
  | shadowsocks p =>
    -- the one condition on the dialect: the plain one lacks the methods that take keys
    by_cases haead : UserKey.isAead2022 p.method = true
    · simp [sharedListing?, hparams, haead] at h
    · simpa [sharedListing?, hparams, haead] using h
  | trojan p | vmess p => simpa [sharedListing?, hparams] using h
  | _ => simp [sharedListing?, hparams] at h

/-- What the plain dialect can express the extended one can. -/
theorem isSome_listing?_extended {s : Server} (h : (listing? .plain s).isSome = true) :
    (listing? .extended s).isSome = true := by
  rw [listing?, Option.isSome_or, Bool.or_eq_true] at h ⊢
  rcases h with hshared | hnone
  · exact .inl (isSome_sharedListing?_extended hshared)
  · cases hnone

theorem expressed_plain_sublist (servers : List Server) :
    (expressed .clash servers).Sublist (expressed .clashMeta servers) := by
  have hplain := expressed_eq_filter (shown?_format .plain) servers
  have hextended := expressed_eq_filter (shown?_format .extended) servers
  rw [show Format.clash = Dialect.plain.format from rfl, hplain,
    show Format.clashMeta = Dialect.extended.format from rfl, hextended]
  exact List.monotone_filter_right servers fun _ => isSome_listing?_extended

end Clash

/-! ## Surge and Surfboard -/

namespace Surge

variable (client : Client) (servers : List Server)

theorem render_eq (uuid : String) (settings : EngineSettings) :
    Subscription.render client.format servers uuid settings = render client (servers.map (·.forUser uuid)) := by
  cases client with
  | _ => rfl

/-- The headings of a profile. -/
def headings : List String := ["[General]", "[Proxy]", "[Proxy Group]", "[Rule]"]

/-- The lines under a heading, without empty ones. -/
def sectionOf (heading : String) (lines : List String) : List String :=
  (((lines.dropWhile (· ≠ heading)).drop 1).takeWhile (· ∉ headings)).filter (· ≠ "")

/-- A line that sets something has an equals sign. -/
def IsSetting (line : String) : Prop := '=' ∈ line.toList

instance (line : String) : Decidable (IsSetting line) := inferInstanceAs (Decidable (_ ∈ _))

variable {client servers}

theorem IsSetting.notMem {line : String} (h : IsSetting line) : line ∉ "" :: headings := by
  have hplain : ∀ heading ∈ "" :: headings, '=' ∉ heading.toList := by decide
  exact fun hmem => hplain line hmem h

theorem isSetting_intercalate (name kind : String) (fields : List String) :
    IsSetting (", ".intercalate (s!"{name} = {kind}" :: fields)) := by
  obtain ⟨rest, hrest⟩ := Text.exists_intercalate_cons ", " s!"{name} = {kind}" fields
  have hequals : '=' ∈ (toString " = ").toList := by decide
  rw [hrest, IsSetting]
  simp only [String.toList_append, List.mem_append, hequals, true_or, or_true]

/-- A section is what stands between its heading and the next. -/
theorem sectionOf_append {heading next : String} {front body rest : List String}
    (hfront : ∀ line ∈ front, line ≠ heading) (hbody : ∀ line ∈ body, IsSetting line) (hnext : next ∈ headings) :
    sectionOf heading (front ++ heading :: (body ++ "" :: next :: rest)) = body := by
  have hdrop : (front ++ heading :: (body ++ "" :: next :: rest)).dropWhile (· ≠ heading) =
      heading :: (body ++ "" :: next :: rest) := by
    rw [List.dropWhile_append_of_pos (by simpa using hfront), List.dropWhile_cons_of_neg (by simp)]
  have htake : (body ++ "" :: next :: rest).takeWhile (· ∉ headings) = body ++ [""] := by
    have hempty : "" ∉ headings := by decide
    have hplain : ∀ line ∈ body, line ∉ headings :=
      fun line hline => mt (List.mem_cons_of_mem _) (hbody line hline).notMem
    rw [List.takeWhile_append_of_pos (by simpa using hplain), List.takeWhile_cons_of_pos (by simpa using hempty),
      List.takeWhile_cons_of_neg (by simpa using hnext)]
  have hkeep : body.filter (· ≠ "") = body := by
    refine List.filter_eq_self.2 fun line hline => ?_
    simpa using fun heq => (hbody line hline).notMem (by simp [heq])
  rw [sectionOf, hdrop, List.drop_one, List.tail_cons, htake, List.filter_append, hkeep]
  simp

theorem isSetting_line {s : Server} {line : String} (h : line? client s = some line) : IsSetting line := by
  obtain ⟨⟨kind, fields⟩, -, rfl⟩ := Option.map_eq_some_iff.1 h
  exact isSetting_intercalate _ _ _

theorem map_line_profile : (profile client servers).map (·.line) = servers.filterMap (line? client) := by
  rw [profile, List.map_filterMap]
  simp only [Option.map_map, Function.comp_def, Option.map_id_fun', id_eq]

theorem map_name_profile :
    (profile client servers).map (·.name) = (expressed client.format servers).map (·.name) := by
  rw [expressed_eq_filter (shown?_format client), map_filter_isSome, profile, List.map_filterMap]
  simp only [Option.map_map, Function.comp_def]

theorem isSetting_proxyLines : ∀ line ∈ proxyLines (profile client servers), IsSetting line := by
  rw [proxyLines, map_line_profile]
  refine List.forall_mem_cons.2 ⟨by decide, fun line hline => ?_⟩
  obtain ⟨s, -, hs⟩ := List.mem_filterMap.1 hline
  exact isSetting_line hs

theorem isSetting_groups (proxies : List Proxy) : ∀ line ∈ (groups proxies).map Group.line, IsSetting line :=
  List.forall_mem_map.2 fun g _ => isSetting_intercalate g.name g.kind _

theorem exists_lines_eq (proxies : List Proxy) :
    ∃ general, (∀ line ∈ general, line ≠ "[Proxy]" ∧ line ≠ "[Proxy Group]") ∧
      lines proxies = general ++ "[Proxy]" :: (proxyLines proxies ++ "" :: "[Proxy Group]" ::
        ((groups proxies).map Group.line ++ "" :: "[Rule]" :: ["GEOIP,CN,DIRECT", "FINAL,Proxy,dns-failed"])) := by
  refine ⟨["[General]", "loglevel = notify", "dns-server = system, 223.5.5.5, 1.1.1.1",
    "skip-proxy = 127.0.0.1, 192.168.0.0/16, 10.0.0.0/8, localhost, *.local", ""], by decide, ?_⟩
  simp only [lines, List.append_assoc, List.cons_append, List.nil_append]

theorem sectionOf_proxies :
    sectionOf "[Proxy]" (lines (profile client servers)) = proxyLines (profile client servers) := by
  obtain ⟨general, hgeneral, hlines⟩ := exists_lines_eq (profile client servers)
  rw [hlines]
  exact sectionOf_append (fun line hline => (hgeneral line hline).1) isSetting_proxyLines (by decide)

theorem sectionOf_groups :
    sectionOf "[Proxy Group]" (lines (profile client servers)) = (groups (profile client servers)).map Group.line := by
  obtain ⟨general, hgeneral, hlines⟩ := exists_lines_eq (profile client servers)
  have hfront : ∀ line ∈ general ++ "[Proxy]" :: (proxyLines (profile client servers) ++ [""]),
      line ≠ "[Proxy Group]" := by
    refine List.forall_mem_append.2 ⟨fun line hline => (hgeneral line hline).2, ?_⟩
    refine List.forall_mem_cons.2 ⟨by decide, List.forall_mem_append.2 ⟨fun line hline heq => ?_, by decide⟩⟩
    exact (isSetting_proxyLines line hline).notMem (by simp [heq, headings])
  have hregroup : lines (profile client servers) =
      (general ++ "[Proxy]" :: (proxyLines (profile client servers) ++ [""])) ++ "[Proxy Group]" ::
        ((groups (profile client servers)).map Group.line ++ "" :: "[Rule]" ::
          ["GEOIP,CN,DIRECT", "FINAL,Proxy,dns-failed"]) := by
    simp only [hlines, List.append_assoc, List.cons_append, List.nil_append]
  rw [hregroup]
  exact sectionOf_append hfront (isSetting_groups _) (by decide)

theorem proxyFields?_surge {s : Server} (h : (proxyFields? .surfboard s).isSome = true) :
    proxyFields? .surge s = proxyFields? .surfboard s := by
  cases hparams : s.params with
  | shadowsocks p =>
    by_cases haead : UserKey.isAead2022 p.method = true
    · simp [proxyFields?, hparams, haead] at h
    · simp [proxyFields?, hparams, haead]
  | hysteria2 p | tuic p => simp [proxyFields?, hparams] at h
  | _ => simp [proxyFields?, hparams]

/-- What Surfboard can express Surge can, in the same line. -/
theorem line?_surge {s : Server} {line : String} (h : line? .surfboard s = some line) : line? .surge s = some line := by
  have hfields : (proxyFields? .surfboard s).isSome = true := by
    rw [← Option.isSome_map, ← line?, h, Option.isSome_some]
  rw [line?, proxyFields?_surge hfields, ← line?, h]

theorem map_line?_expressed :
    (profile client servers).map (some ·.line) = (expressed client.format servers).map (line? client) := by
  rw [expressed_eq_filter (shown?_format client), map_filter_isSome, profile, List.map_filterMap]
  refine List.filterMap_congr fun s _ => ?_
  cases line? client s with
  | _ => simp

end Surge

/-! ## The larger formats include the smaller ones -/

end Subscription

end ProxyFleet

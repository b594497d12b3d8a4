import ProxyFleet.Proofs.Subscription.Outline

/-!
# Obfuscation of shadowsocks

A listing of the extended Clash dialect names the plugin of a shadowsocks server, with the mode that the
options give. The lines of Surge, Surfboard and Quantumult X have a field for the mode, and none for the
plugin: the mode is written wherever the options have one, whatever the plugin is, and also without one.

* `LineParts`, `lineParts?` : a line in parts;
* `mode_mem_fields_iff` : the mode in a line is the option of this name;
* `Clash.plugin?_shadowsocks` : what a listing says of the plugin;
* `AgreesOnObfs` : line and listing say the same of the obfuscation;
* `agreesOnObfs_iff` : when they do.
-/

namespace ProxyFleet.Subscription

set_option autoImplicit false

open Text (Apart)

/-- The formats whose lines have a field for the mode of obfuscation. -/
def obfsFormats : List Format := [.surge, .surfboard, .quantumultX]

/-- The plugins that obfuscate. -/
def obfsPlugins : List String := ["obfs-local", "simple-obfs", "obfs"]

/-! ## Lines in parts -/

/-- A line in parts: whom it is about, and fields. -/
structure LineParts where
  heading : List String
  fields : List String

/-- The text of a line. -/
def LineParts.text (l : LineParts) : String := ", ".intercalate (l.heading ++ l.fields)

/-- The line of a server, where the format has a field for the mode and can express the server. -/
def lineParts? (format : Format) (s : Server) : Option LineParts :=
  let surge (client : Surge.Client) : Option LineParts :=
    (Surge.proxyFields? client s).map fun (kind, fields) =>
      ⟨[s!"{s.name} = {kind}", s.host, toString s.port], fields⟩
  match format with
  | .surge => surge .surge
  | .surfboard => surge .surfboard
  | .quantumultX =>
    (QuantumultX.serverFields? s).map fun (kind, fields) =>
      let address := Net.authority s.host s.port.toNat
      ⟨[s!"{kind}={address}"], fields ++ ["fast-open=false", s!"tag={s.name}"]⟩
  | _ => none

/-- The field for a mode. -/
def modeField (mode : String) : String := s!"obfs={mode}"

variable {format : Format} {s : Server} {p : Shadowsocks}

theorem shown?_eq_lineParts (hformat : format ∈ obfsFormats) (s : Server) :
    shown? format s = (lineParts? format s).map (.line ·.text) := by
  cases format with
  | surge | surfboard | quantumultX =>
    simp only [shown?, lineParts?, Surge.line?, QuantumultX.line?, Option.map_map]
    rfl
  | _ => simp [obfsFormats] at hformat

theorem modeField_inj {m m' : String} : modeField m = modeField m' ↔ m = m' := String.append_right_inj _

theorem modeField_ne {a : String} (h : Apart "obfs=" a) (mode r : String) : modeField mode ≠ a ++ r :=
  h.append_ne mode r

theorem modeField_ne_literal {a : String} (h : Apart "obfs=" a) (mode : String) : modeField mode ≠ a := by
  simpa using modeField_ne h mode ""

theorem mode_mem_obfsFields_iff {fields : List String} (h : Surge.obfsFields? p = some fields) (mode : String) :
    modeField mode ∈ fields ↔ p.option? "obfs" = some mode := by
  -- the one other field that may stand here starts alike, up to the equals sign
  have hhost : ∀ host, modeField mode ≠ s!"obfs-host={host}" := modeField_ne (by decide) mode
  unfold Surge.obfsFields? at h
  cases hoption : p.option? "obfs" with
  | none =>
    rw [hoption] at h
    split_ifs at h
    obtain rfl := Option.some.inj h
    simp
  | some m =>
    rw [hoption] at h
    obtain rfl := Option.some.inj h
    have hmode : modeField mode = s!"obfs={m}" ↔ some m = some mode := by
      rw [Option.some.injEq, eq_comm (a := m)]
      exact modeField_inj
    cases p.option? "obfs-host" with
    | none => simpa using hmode
    | some host => simpa [hhost] using hmode

/-- None of the fields around those of the obfuscation is one for the mode. -/
theorem mode_mem_shadowsocksFields_iff {a : String} (h : Apart "obfs=" a) (method password : String)
    (obfs : List String) (mode : String) :
    modeField mode ∈ [a ++ method, s!"password={password}"] ++ obfs ++ ["udp-relay=true"] ↔
      modeField mode ∈ obfs := by
  have hmethod : modeField mode ≠ a ++ method := modeField_ne h mode method
  have hpassword : modeField mode ≠ s!"password={password}" := modeField_ne (by decide) mode password
  have hudp : modeField mode ≠ "udp-relay=true" := modeField_ne_literal (by decide) mode
  simp [hmethod, hpassword, hudp]

theorem Surge.exists_obfsFields (hparams : s.params = .shadowsocks p) {client : Client} {kind : String}
    {fields : List String} (h : proxyFields? client s = some (kind, fields)) :
    ∃ obfs, obfsFields? p = some obfs ∧ ∀ mode, modeField mode ∈ fields ↔ modeField mode ∈ obfs := by
  simp only [proxyFields?, hparams] at h
  split_ifs at h
  obtain ⟨obfs, hobfs, heq⟩ := Option.map_eq_some_iff.1 h
  obtain ⟨rfl, rfl⟩ := Prod.mk.inj heq
  exact ⟨obfs, hobfs, mode_mem_shadowsocksFields_iff (by decide) p.method p.password obfs⟩

theorem QuantumultX.exists_obfsFields (hparams : s.params = .shadowsocks p) {kind : String}
    {fields : List String} (h : serverFields? s = some (kind, fields)) :
    ∃ obfs, Surge.obfsFields? p = some obfs ∧ ∀ mode, modeField mode ∈ fields ↔ modeField mode ∈ obfs := by
  simp only [serverFields?, hparams] at h
  obtain ⟨obfs, hobfs, heq⟩ := Option.map_eq_some_iff.1 h
  obtain ⟨rfl, rfl⟩ := Prod.mk.inj heq
  exact ⟨obfs, hobfs, mode_mem_shadowsocksFields_iff (by decide) p.method p.password obfs⟩

/-- The line of a shadowsocks server has the fields of its obfuscation among others. -/
theorem exists_obfsFields_of_line (hparams : s.params = .shadowsocks p) {line : LineParts}
    (hline : lineParts? format s = some line) :
    ∃ obfs, Surge.obfsFields? p = some obfs ∧ ∀ mode, modeField mode ∈ line.fields ↔ modeField mode ∈ obfs := by
  cases format with
  | surge | surfboard =>
    obtain ⟨⟨kind, fields⟩, hfields, rfl⟩ := Option.map_eq_some_iff.1 hline
    exact Surge.exists_obfsFields hparams hfields
  | quantumultX =>
    obtain ⟨⟨kind, fields⟩, hfields, rfl⟩ := Option.map_eq_some_iff.1 hline
    obtain ⟨obfs, hobfs, hmem⟩ := QuantumultX.exists_obfsFields hparams hfields
    have hopen : ∀ mode, modeField mode ≠ "fast-open=false" := modeField_ne_literal (by decide)
    have htag : ∀ mode name, modeField mode ≠ s!"tag={name}" := modeField_ne (by decide)
    exact ⟨obfs, hobfs, fun mode => by simp [hmem, hopen, htag]⟩
  | _ => cases hline

theorem mode_mem_fields_iff (hparams : s.params = .shadowsocks p) {line : LineParts}
    (hline : lineParts? format s = some line) (mode : String) :
    modeField mode ∈ line.fields ↔ p.option? "obfs" = some mode := by
  obtain ⟨fields, hfields, hmem⟩ := exists_obfsFields_of_line hparams hline
  rw [hmem, mode_mem_obfsFields_iff hfields]

/-- A line without a mode is one of a server without a plugin. -/
theorem plugin_of_line (hparams : s.params = .shadowsocks p) {line : LineParts}
    (hline : lineParts? format s = some line) (hoption : p.option? "obfs" = none) : p.plugin = none := by
  obtain ⟨fields, hfields, -⟩ := exists_obfsFields_of_line hparams hline
  unfold Surge.obfsFields? at hfields
  rw [hoption] at hfields
  cases hplugin : p.plugin with
  | none => rfl
  | some plugin => simp [hplugin] at hfields

/-! ## Listings -/

namespace Clash

/-- The plugin that fields name, and the mode that they give it. -/
def pluginIn (fields : Yaml.Fields) : Option Yaml × Option Yaml :=
  ((Yaml.map fields).get? "plugin", (Yaml.map fields).get? "plugin-opts" >>= Yaml.get? "mode")

/-- The plugin of a server and its mode, where the extended dialect can express the server. -/
def plugin? (s : Server) : Option (Option Yaml × Option Yaml) := (listing? .extended s).map pluginIn

theorem pluginIn_named (name : String) (mode host : Option String) :
    pluginIn [("plugin", .text name), ("plugin-opts",
      .map (Yaml.field? "mode" (mode.map .text) ++ Yaml.field? "host" (host.map .text)))] =
      (some (.text name), mode.map .text) := by
  cases mode with
  | none => cases host with
    | _ => rfl
  | some mode => rfl

/-- What a listing says of the plugin is all in the fields of the plugin. -/
theorem plugin?_eq_fields (hparams : s.params = .shadowsocks p) : plugin? s = (pluginFields? p).map pluginIn := by
  have hshared : listing? .extended s = sharedListing? .extended s :=
    listing?_of_shared .extended (by simp [extendedListing?, hparams])
  have hfields : sharedListing? .extended s = (pluginFields? p).map fun plugin =>
      baseFields s "ss" ++ [("cipher", .text p.method), ("password", .text p.password), ("udp", .bool true)]
        ++ plugin := by
    simp [sharedListing?, hparams]
  rw [plugin?, hshared, hfields, Option.map_map]
  refine Option.map_congr fun fields _ => ?_
  rw [Function.comp_apply, pluginIn, Yaml.get?_append_of_ne (by simp [baseFields]),
    Yaml.get?_append_of_ne (by simp [baseFields]), pluginIn]

/-- The extended dialect goes by the plugin. -/
theorem plugin?_shadowsocks (hparams : s.params = .shadowsocks p) :
    plugin? s =
      match p.plugin with
      | none => some (none, none)
      | some plugin =>
        if plugin ∈ obfsPlugins then some (some (.text "obfs"), (p.option? "obfs").map .text)
        else if plugin = "v2ray-plugin" then some (some (.text "v2ray-plugin"), (p.option? "mode").map .text)
        else none := by
  rw [plugin?_eq_fields hparams, pluginFields?]
  cases p.plugin with
  | none => rfl
  | some plugin =>
    have hobfs : ["obfs-local", "simple-obfs", "obfs"].contains plugin = true ↔ plugin ∈ obfsPlugins :=
      List.contains_iff_mem
    simp only [hobfs]
    split_ifs
    · exact congrArg some (pluginIn_named "obfs" _ _)
    · exact congrArg some (pluginIn_named "v2ray-plugin" _ _)
    · rfl

theorem exists_plugin_of_obfs (hparams : s.params = .shadowsocks p) {mode : Option Yaml}
    (h : plugin? s = some (some (.text "obfs"), mode)) : ∃ plugin ∈ obfsPlugins, p.plugin = some plugin := by
  rw [plugin?_shadowsocks hparams] at h
  cases hplugin : p.plugin with
  | none => simp [hplugin] at h
  | some plugin =>
    simp only [hplugin] at h
    split_ifs at h with hobfs hv2ray
    · exact ⟨plugin, hobfs, rfl⟩
    · simp at h

end Clash

/-! ## Agreement -/

/-- A line with a mode is one of a server that the extended dialect lists with the plugin `obfs` and this mode,
and a line without one is one of a server that it lists with no plugin. -/
structure AgreesOnObfs (format : Format) (s : Server) : Prop where
  obfuscated : ∀ line, lineParts? format s = some line → ∀ mode, modeField mode ∈ line.fields →
    Clash.plugin? s = some (some (.text "obfs"), some (.text mode))
  plain : ∀ line, lineParts? format s = some line → (∀ mode, modeField mode ∉ line.fields) →
    Clash.plugin? s = some (none, none)

/-- **When the formats agree on obfuscation.** Let a format have lines with a field for the mode. Its entry of a
shadowsocks server is the text of the line; and line and listing agree on the obfuscation exactly if, wherever
the format shows a server whose options have a mode, the plugin is one of those that obfuscate. Otherwise
the line has the mode all the same, and there is no listing, or one with another plugin or none. -/
theorem agreesOnObfs_iff (hformat : format ∈ obfsFormats) (hparams : s.params = .shadowsocks p) :
    shown? format s = (lineParts? format s).map (.line ·.text) ∧
    (AgreesOnObfs format s ↔
      ((shown? format s).isSome → (p.option? "obfs").isSome → ∃ plugin ∈ obfsPlugins, p.plugin = some plugin)) := by
  refine ⟨shown?_eq_lineParts hformat s, ?_⟩
  rw [shown?_eq_lineParts hformat s, Option.isSome_map]
  constructor
  · intro hagrees hshown hoption
    obtain ⟨line, hline⟩ := Option.isSome_iff_exists.1 hshown
    obtain ⟨mode, hmode⟩ := Option.isSome_iff_exists.1 hoption
    -- the mode is in the line, whatever the plugin is
    have hplugin := hagrees.obfuscated line hline mode ((mode_mem_fields_iff hparams hline mode).2 hmode)
    exact Clash.exists_plugin_of_obfs hparams hplugin
  · intro hplugin
    constructor
    · intro line hline mode hmem
      have hmode : p.option? "obfs" = some mode := (mode_mem_fields_iff hparams hline mode).1 hmem
      obtain ⟨plugin, hobfs, hplugin⟩ := hplugin (by simp [hline]) (by simp [hmode])
      simp [Clash.plugin?_shadowsocks hparams, hplugin, hobfs, hmode]
    · intro line hline hmem
      have hmode : p.option? "obfs" = none :=
        Option.eq_none_iff_forall_ne_some.2 fun mode => mt (mode_mem_fields_iff hparams hline mode).2 (hmem mode)
      simp [Clash.plugin?_shadowsocks hparams, plugin_of_line hparams hline hmode]

/-- A shadowsocks server with a mode in the options of its plugin. -/
def sampleObfs (plugin : String) : Server :=
  ⟨"a", "127.0.0.1", 443, .shadowsocks ⟨"aes-128-gcm", "secret", some plugin,
    some "obfs=http;host=example.com"⟩⟩

theorem agreesOnObfs_iff_sampleObfs :
    .surge ∈ obfsFormats ∧
    ∃ p, (sampleObfs "obfs-local").params = .shadowsocks p ∧
      shown? .surge (sampleObfs "obfs-local") = (lineParts? .surge (sampleObfs "obfs-local")).map (.line ·.text) ∧
      (AgreesOnObfs .surge (sampleObfs "obfs-local") ↔
        ((shown? .surge (sampleObfs "obfs-local")).isSome → (p.option? "obfs").isSome →
          ∃ plugin ∈ obfsPlugins, p.plugin = some plugin)) := by
  have hformat : Format.surge ∈ obfsFormats := by decide
  exact ⟨hformat, _, rfl, agreesOnObfs_iff hformat rfl⟩

/-- With a plugin that does not obfuscate, the line has a mode, and the listing has that plugin. -/
theorem obfuscation_sampleObfs_v2ray :
    (sampleObfs "v2ray-plugin").Accepted ∧
    shown? .surge (sampleObfs "v2ray-plugin") =
      some (.line "a = ss, 127.0.0.1, 443, encrypt-method=aes-128-gcm, password=secret, obfs=http, udp-relay=true") ∧
    Clash.plugin? (sampleObfs "v2ray-plugin") = some (some (.text "v2ray-plugin"), none) ∧
    ¬AgreesOnObfs .surge (sampleObfs "v2ray-plugin") := by
  have hparse : Params.parse "shadowsocks" [("method", .str "aes-128-gcm"), ("password", .str "secret"),
      ("plugin", .str "v2ray-plugin"), ("plugin_opts", .str "obfs=http;host=example.com")] =
      .ok (sampleObfs "v2ray-plugin").params := by rfl
  have hplugin : Clash.plugin? (sampleObfs "v2ray-plugin") = some (some (.text "v2ray-plugin"), none) := by rfl
  refine ⟨Server.accepted_of_parse hparse, by rfl, hplugin, fun hagrees => ?_⟩
  have hobfs := hagrees.obfuscated _ rfl "http" (by decide)
  rw [hplugin] at hobfs
  simp at hobfs

end ProxyFleet.Subscription

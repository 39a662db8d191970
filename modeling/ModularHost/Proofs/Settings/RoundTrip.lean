import ModularHost.Proofs.Json.Fields
import ModularHost.Proofs.Json.Printing
import ModularHost.Proofs.Settings.Defaults
/-!
# Settings written and read back

Settings that are written as JSON are read back as they are (`Settings.read_back`). Each table names
all of its fields, so no default takes the place of a value, be it an empty list, a zero or a false
flag; of a connector's section only what it does not have is left out. The keys without a meaning
are a map: each once, in order (`ConnectorSection.Proper`). So they are in all settings that have
been read (`SettingsDocument.proper_of_read`).
-/


namespace ModularHost

open Json.Decoder

variable {dialect : Json.Dialect}

/-! ## Maps as lists -/

/-- The keys without a meaning are in order, none twice and none of those that have one; and each
has a value as a map holds it. -/
structure ConnectorSection.Proper (s : ConnectorSection) : Prop where
  ordered : KeyOrdered s.settings
  free : ∀ m ∈ s.settings, ∀ key : SectionKey, m.1 ≠ key.name
  normal : ∀ m ∈ s.settings, m.2.normal = m.2

/-- The sections are in order, no two under one name. -/
structure ConnectorSections.Proper (s : ConnectorSections) : Prop where
  ordered : KeyOrdered s.entries
  sections : ∀ e ∈ s.entries, e.2.Proper

/-- **Settings as they are held**: their maps are maps. -/
def Settings.Proper (c : Settings) : Prop := c.connectors.Proper

/-! ## The fixed tables -/

theorem ServerSettings.independent_fields : Independent ServerSettings.fields where
  names := by decide
  apart := by simp [fields, RecordField.absentable, RecordField.apart_of_set]

theorem ServerSettings.decode_members (s : ServerSettings) :
    ServerSettings.decoder.ofTree dialect (.ofMembers s.members) = .ok s := by
  have hnodup : (s.members.map (·.1)).Nodup := by
    change List.Nodup ["services", "fail_fast"]
    decide
  refine record_ofMembers independent_fields hnodup ?_
  refine (taken_absentable _ (by rfl)).2
    ⟨s.services, (exact_list (exact_text _)).given_iff.2 rfl, ?_⟩
  exact (taken_absentable _ (by rfl)).2 ⟨s.failFast, exact_bool.given_iff.2 rfl, rfl⟩

theorem ModuleSettings.independent_fields : Independent ModuleSettings.fields where
  names := by decide
  apart := by simp [fields, RecordField.needed, RecordField.absentable, RecordField.apart_of_set]

theorem ModuleSettings.decode_members (s : ModuleSettings) :
    ModuleSettings.decoder.ofTree dialect (.ofMembers s.members) = .ok s := by
  have hnodup : (s.members.map (·.1)).Nodup := by
    change List.Nodup ["directory", "loader", "auto_load", "whitelist", "load_timeout_secs"]
    decide
  have hloader : (variants LoaderKind.table).ofTree dialect (.str s.loader.name) =
      .ok s.loader := by
    cases dialect <;> cases s.loader <;> rfl
  have htimeout : (integer 0 18446744073709551615 "u64").ofTree dialect
      (.int s.loadTimeoutSecs.toNat) = .ok (s.loadTimeoutSecs.toNat : Int) := by
    have hlt := s.loadTimeoutSecs.toNat_lt
    exact integer_ofTree_eq_ok_iff.2 ⟨rfl, by omega, by omega⟩
  refine record_ofMembers independent_fields hnodup ?_
  refine taken_needed.2 ⟨_, s.directory.text, rfl, (exact_text _ _ _ _).2 rfl, ?_⟩
  refine (taken_absentable _ (by rfl)).2 ⟨s.loader, hloader, ?_⟩
  refine (taken_absentable _ (by rfl)).2 ⟨s.autoLoad, exact_bool.given_iff.2 rfl, ?_⟩
  refine (taken_absentable _ (by rfl)).2
    ⟨s.whitelist, (exact_list (exact_text _)).given_iff.2 rfl, ?_⟩
  refine (taken_absentable 30 (by rfl)).2 ⟨_, htimeout, ?_⟩
  simp [Taken]

theorem LoggingSettings.independent_fields : Independent LoggingSettings.fields where
  names := by decide
  apart := by simp [fields, RecordField.absentable, RecordField.apart_of_set]

theorem LoggingSettings.decode_members (s : LoggingSettings) :
    LoggingSettings.decoder.ofTree dialect (.ofMembers s.members) = .ok s := by
  have hnodup : (s.members.map (·.1)).Nodup := by
    change List.Nodup ["level", "json_format"]
    decide
  refine record_ofMembers independent_fields hnodup ?_
  refine (taken_absentable _ (by rfl)).2 ⟨s.level, (exact_text _).given_iff.2 rfl, ?_⟩
  exact (taken_absentable _ (by rfl)).2 ⟨s.jsonFormat, exact_bool.given_iff.2 rfl, rfl⟩

/-! ## Sections -/

namespace ConnectorSection

variable {s : ConnectorSection}

/-- The value of a key with a meaning. -/
def value (s : ConnectorSection) : SectionKey → Option String
  | .implementation => s.implementation
  | .authType => s.authType
  | .username => s.username
  | .password => s.password

/-- The members of the keys with a meaning. -/
def named (s : ConnectorSection) : List (String × Json) :=
  member .implementation s.implementation ++ member .authType s.authType
    ++ member .username s.username ++ member .password s.password

theorem independent_fields : Independent fields where
  names := by decide
  apart := by simp [fields, RecordField.absentable, RecordField.apart_of_set]

theorem exists_key_of_mem_fields {f : RecordField ConnectorSection} (hf : f ∈ fields) :
    ∃ key : SectionKey, f.name = key.name := by
  simp only [fields, List.mem_cons, List.not_mem_nil, or_false] at hf
  rcases hf with rfl | rfl | rfl | rfl
  · exact ⟨.implementation, rfl⟩
  · exact ⟨.authType, rfl⟩
  · exact ⟨.username, rfl⟩
  · exact ⟨.password, rfl⟩

theorem exists_field (key : SectionKey) : ∃ f ∈ fields, f.name = key.name := by
  cases key with
  | implementation => exact ⟨_, .head _, rfl⟩
  | authType => exact ⟨_, .tail _ (.head _), rfl⟩
  | username => exact ⟨_, .tail _ (.tail _ (.head _)), rfl⟩
  | password => exact ⟨_, .tail _ (.tail _ (.tail _ (.head _))), rfl⟩

theorem keys_member_sublist (key : SectionKey) (v : Option String) :
    ((member key v).map (·.1)).Sublist [key.name] := by
  cases v with
  | none => exact List.nil_sublist _
  | some v => exact .refl _

theorem keys_named_sublist (s : ConnectorSection) : (s.named.map (·.1)).Sublist
    [SectionKey.implementation.name, SectionKey.authType.name, SectionKey.username.name,
      SectionKey.password.name] := by
  simp only [named, List.map_append]
  exact (((keys_member_sublist _ _).append (keys_member_sublist _ _)).append
    (keys_member_sublist _ _)).append (keys_member_sublist _ _)

theorem exists_key_of_mem_named {m : String × Json} (hm : m ∈ s.named) :
    ∃ key : SectionKey, m.1 = key.name := by
  have hmem := s.keys_named_sublist.subset (List.mem_map_of_mem (f := (·.1)) hm)
  simp only [List.mem_cons, List.not_mem_nil, or_false] at hmem
  rcases hmem with h | h | h | h
  · exact ⟨_, h⟩
  · exact ⟨_, h⟩
  · exact ⟨_, h⟩
  · exact ⟨_, h⟩

namespace Proper

variable (h : s.Proper)
include h

theorem nodup_members : ((s.named ++ s.settings).map (·.1)).Nodup := by
  rw [List.map_append, List.nodup_append]
  refine ⟨List.Nodup.sublist s.keys_named_sublist (by decide), h.ordered.nodup_keys, ?_⟩
  intro key hkey other hother heq
  obtain ⟨m, hm, rfl⟩ := List.mem_map.1 hkey
  obtain ⟨n, hn, rfl⟩ := List.mem_map.1 hother
  obtain ⟨meaning, hmeaning⟩ := exists_key_of_mem_named hm
  exact h.free n hn meaning (heq.symm.trans hmeaning)

/-- A key with a meaning is looked up as its value, if it has one. -/
theorem lookup_members (key : SectionKey) :
    (s.named ++ s.settings).lookup key.name = (s.value key).map .str := by
  have hfree : s.settings.lookup key.name = none := lookup_eq_none_of_not_mem fun hmem => by
    obtain ⟨m, hm, heq⟩ := List.mem_map.1 hmem
    exact h.free m hm key heq
  -- each of the four keys has a member of its own, or none
  have hmember : ∀ (k : SectionKey) (v : Option String),
      (member k v).lookup key.name = if key.name = k.name then v.map .str else none := by
    intro k v
    cases v with
    | none => simp [member]
    | some v =>
      by_cases hk : key.name = k.name
      · simp [member, hk]
      · have hne : (key.name == k.name) = false := by simpa using hk
        simp [member, List.lookup_cons, hne, hk]
  simp only [named, List.lookup_append, hfree, hmember]
  cases key <;> simp [SectionKey.name, value]

/-- The keys without a meaning are what is left. -/
theorem unclaimed_members : unclaimed fields (s.named ++ s.settings) = s.settings := by
  have hnamed : unclaimed fields s.named = [] := by
    refine List.filter_eq_nil_iff.2 fun m hm => ?_
    obtain ⟨key, hkey⟩ := exists_key_of_mem_named hm
    obtain ⟨f, hf, hname⟩ := exists_field key
    simpa using ⟨f, hf, hname.trans hkey.symm⟩
  have hfree : unclaimed fields s.settings = s.settings := by
    refine List.filter_eq_self.2 fun m hm => ?_
    have hnone : ∀ f ∈ fields, f.name ≠ m.1 := by
      intro f hf heq
      obtain ⟨key, hkey⟩ := exists_key_of_mem_fields hf
      exact h.free m hm key (heq.symm.trans hkey)
    simpa using hnone
  rw [unclaimed, List.filter_append]
  change unclaimed fields s.named ++ unclaimed fields s.settings = _
  rw [hnamed, hfree, List.nil_append]

/-- **A section is read back**: its keys with a meaning as they are, and the others as a map. -/
theorem decode_toJson : ConnectorSection.decoder.ofTree dialect s.toJson = .ok s := by
  have hperm : (sortMembers (s.named ++ s.settings)).Perm (s.named ++ s.settings) :=
    sortMembers_perm h.nodup_members
  have hnodup : ((sortMembers (s.named ++ s.settings)).map (·.1)).Nodup :=
    (hperm.map _).nodup_iff.2 h.nodup_members
  have hvalue : ∀ key : SectionKey, Given dialect (optional string) none
      ((sortMembers (s.named ++ s.settings)).lookup key.name) (s.value key) := by
    intro key
    rw [lookup_perm hnodup hperm, h.lookup_members]
    exact (exact_optional (exact_text _) fun _ => Json.noConfusion).given_iff.2 rfl
  -- what no field claims are the settings, among which sorting has changed nothing
  have hrest : (unclaimed fields (sortMembers (s.named ++ s.settings))).Perm s.settings := by
    have hfilter : (unclaimed fields (sortMembers (s.named ++ s.settings))).Perm
        (unclaimed fields (s.named ++ s.settings)) := hperm.filter _
    rwa [h.unclaimed_members] at hfilter
  have hkept : sortMembers (Json.normalMembers
      (unclaimed fields (sortMembers (s.named ++ s.settings)))) = s.settings := by
    rw [Json.normalMembers_eq_self fun m hm => h.normal m (hrest.mem_iff.1 hm)]
    exact h.ordered.sortMembers_eq hrest
  refine (openRecord_iff_taken independent_fields hnodup).2
    ⟨{ s with settings := [] }, ?_, congrArg Except.ok ?_⟩
  · refine (taken_absentable _ (by rfl)).2 ⟨_, hvalue .implementation, ?_⟩
    refine (taken_absentable _ (by rfl)).2 ⟨_, hvalue .authType, ?_⟩
    refine (taken_absentable _ (by rfl)).2 ⟨_, hvalue .username, ?_⟩
    exact (taken_absentable _ (by rfl)).2 ⟨_, hvalue .password, rfl⟩
  · dsimp only
    rw [hkept]

end Proper

end ConnectorSection

theorem ConnectorSections.Proper.decode_toJson {s : ConnectorSections} (h : s.Proper) :
    ConnectorSections.decoder.ofTree dialect s.toJson = .ok s := by
  have hmembers : (s.entries.map fun e => (e.1, e.2.toJson)).mapM (fun (m : String × Json) =>
      (ConnectorSection.decoder.ofTree dialect m.2).map (m.1, ·)) = .ok s.entries := by
    refine mapM_eq_ok_iff.2 (List.forall₂_map_left_iff.2 (List.forall₂_same.2 fun e he => ?_))
    rw [(h.sections e he).decode_toJson]
    rfl
  refine Json.map_eq_ok_iff.2 ⟨s.entries, Json.bind_eq_ok_iff.2 ⟨s.entries, hmembers, ?_⟩, rfl⟩
  exact congrArg Except.ok (h.ordered.sortMembers_eq (.refl _))

/-! ## Settings -/

theorem Settings.independent_fields : Independent Settings.fields where
  names := by decide
  apart := by simp [fields, RecordField.absentable, RecordField.apart_of_set]

theorem Settings.Proper.decode_toJson {c : Settings} (h : c.Proper) :
    Settings.decoder.ofTree dialect c.toJson = .ok c := by
  refine record_ofMembers Settings.independent_fields (by
    change List.Nodup ["server", "modules", "logging", "connectors"]
    decide) ?_
  refine (taken_absentable _ (by rfl)).2 ⟨c.server, c.server.decode_members, ?_⟩
  refine (taken_absentable _ (by rfl)).2 ⟨c.modules, c.modules.decode_members, ?_⟩
  refine (taken_absentable _ (by rfl)).2 ⟨c.logging, c.logging.decode_members, ?_⟩
  exact (taken_absentable _ (by rfl)).2
    ⟨c.connectors, ConnectorSections.Proper.decode_toJson h, rfl⟩

/-! ## What has been read -/

/-- Whatever is kept without a meaning is a map in the end. -/
theorem ConnectorSection.proper_of_rest {rest : List (String × Json)}
    (hrest : ∀ m ∈ rest, ∀ f ∈ fields, f.name ≠ m.1) (s : ConnectorSection) :
    Proper { s with settings := sortMembers (Json.normalMembers rest) } where
  ordered := keyOrdered_sortMembers _
  free m hm key heq := by
    have hkey : m.1 ∈ rest.map (·.1) := by
      rw [← Json.map_fst_normalMembers]
      exact List.mem_map_of_mem (mem_sortMembers hm)
    obtain ⟨n, hn, hname⟩ := List.mem_map.1 hkey
    obtain ⟨f, hf, hfield⟩ := exists_field key
    exact hrest n hn f hf (hfield.trans (heq.symm.trans hname.symm))
  normal m hm := Json.normal_of_mem_normalMembers rest m (mem_sortMembers hm)

theorem ConnectorSections.proper_of_decodeFrom {src : Json.Source} {s : ConnectorSections}
    (h : ConnectorSections.decoder.decodeFrom src = .ok s) : s.Proper := by
  obtain ⟨entries, hentries, rfl⟩ := decodeFrom_map_eq_ok_iff.1 h
  have hsection : ∀ src s, ConnectorSection.decoder.decodeFrom src = .ok s →
      ConnectorSection.Proper s := by
    intro src s hs
    obtain ⟨dialect, rest, blank, hrest, hfinish⟩ := openRecord_made hs
    cases hfinish
    exact ConnectorSection.proper_of_rest hrest blank
  obtain ⟨hordered, hsections⟩ := dictionary_made hsection hentries
  exact ⟨hordered, hsections⟩

theorem Settings.proper_default : Settings.default.Proper where
  ordered := List.pairwise_singleton _ _
  sections e he := by
    obtain rfl := List.mem_singleton.1 he
    exact ⟨List.Pairwise.nil, fun m hm => (List.not_mem_nil hm).elim,
      fun m hm => (List.not_mem_nil hm).elim⟩

/-- **Settings that have been read are proper**, whatever the document. -/
theorem SettingsDocument.proper_of_read {d : SettingsDocument} {c : Settings}
    (h : d.read = some c) : c.Proper := by
  obtain ⟨src, -, hdecode⟩ := decodeFrom_of_read h
  exact record_get Settings.skips_fields (by decide) Settings.connectors 3 rfl
    ⟨RecordField.spares_of_set fun _ _ => rfl, RecordField.spares_of_set fun _ _ => rfl,
      RecordField.spares_of_set fun _ _ => rfl⟩ hdecode
    (P := ConnectorSections.Proper)
    (fun part v _ hv _ => ConnectorSections.proper_of_decodeFrom hv) (.inl Settings.proper_default)

/-! ## Texts -/

theorem Settings.agrees_decoder : Settings.decoder.Agrees := by
  have hserver : ∀ f ∈ ServerSettings.fields, f.value.Agrees :=
    List.forall_iff_forall_mem.1
      ⟨agrees_map (agrees_list (agrees_text _)) _, agrees_map agrees_bool _⟩
  have hmodules : ∀ f ∈ ModuleSettings.fields, f.value.Agrees :=
    List.forall_iff_forall_mem.1
      ⟨agrees_map (agrees_text _) _, agrees_map (agrees_variants _) _, agrees_map agrees_bool _,
        agrees_map (agrees_list (agrees_text _)) _, agrees_map (agrees_integer _ _ _) _⟩
  have hlogging : ∀ f ∈ LoggingSettings.fields, f.value.Agrees :=
    List.forall_iff_forall_mem.1 ⟨agrees_map (agrees_text _) _, agrees_map agrees_bool _⟩
  have hkey : ∀ {set : Option String → ConnectorSection → ConnectorSection},
      ((optional string).map set).Agrees := agrees_map (agrees_optional (agrees_text _)) _
  have hsection : ∀ f ∈ ConnectorSection.fields, f.value.Agrees :=
    List.forall_iff_forall_mem.1 ⟨hkey, hkey, hkey, hkey⟩
  exact agrees_record (List.forall_iff_forall_mem.1
    ⟨agrees_map (agrees_record hserver) _, agrees_map (agrees_record hmodules) _,
      agrees_map (agrees_record hlogging) _,
      agrees_map (agrees_map (agrees_dictionary (agrees_openRecord hsection)) _) _⟩)

/-- **Settings are read back from the JSON they are written as**, from the value, and from its text
if that can be read as a value. Their maps have to be maps; those of all settings are that have been
read from a document, and those of the default settings. -/
theorem Settings.read_back (c : Settings) (h : c.Proper) :
    Settings.decoder.decode c.toJson = .ok c ∧
    (c.toJson.Plain → c.toJson.nesting ≤ Json.depthLimit →
      Settings.decoder.decodeText c.toJson.text = .ok c) ∧
    (∀ (d : SettingsDocument) (c : Settings), d.read = some c → c.Proper) ∧
    Settings.default.Proper := by
  have hvalue : Settings.decoder.decode c.toJson = .ok c := h.decode_toJson
  refine ⟨hvalue, fun hplain hdepth => ?_, fun d c hread => SettingsDocument.proper_of_read hread,
    Settings.proper_default⟩
  exact (decodeText_text Settings.agrees_decoder hplain hdepth).2 hvalue

/-- Settings as far from the defaults as can be: without services, with nothing switched on and no
limit to a load, and with sections that name no implementation. -/
def bareSettings : Settings :=
  { server := ⟨[], false⟩
    modules := ⟨⟨""⟩, .library, false, [], 0⟩
    logging := ⟨"", false⟩
    connectors := ⟨[("", .blank),
      ("tide", { ConnectorSection.blank with
        password := some ""
        settings := [("depth", .null), ("port", .obj [("a", .arr []), ("b", .bool false)])] })]⟩ }

theorem Settings.read_back_bare :
    bareSettings.Proper ∧ Settings.decoder.decode bareSettings.toJson = .ok bareSettings ∧
    Settings.decoder.decodeText bareSettings.toJson.text = .ok bareSettings ∧
    ({ bareSettings with connectors := .empty } : Settings).Proper ∧
    Settings.decoder.decode ({ bareSettings with connectors := .empty } : Settings).toJson =
      .ok { bareSettings with connectors := .empty } := by
  have hblank : ConnectorSection.blank.Proper :=
    ⟨.nil, fun m hm => (List.not_mem_nil hm).elim, fun m hm => (List.not_mem_nil hm).elim⟩
  have hproper : bareSettings.Proper := by
    refine ⟨.cons ?_ (List.pairwise_singleton _ _), List.forall_mem_cons.2
      ⟨hblank, List.forall_mem_singleton.2 ⟨.cons ?_ (List.pairwise_singleton _ _), ?_, ?_⟩⟩⟩
    · exact List.forall_mem_singleton.2 (by decide)
    · exact List.forall_mem_singleton.2 (by decide)
    · intro m hm key
      simp only [List.mem_cons, List.not_mem_nil, or_false] at hm
      rcases hm with rfl | rfl <;> cases key <;> decide
    · intro m hm
      simp only [List.mem_cons, List.not_mem_nil, or_false] at hm
      rcases hm with rfl | rfl
      · rfl
      · rfl
  have hempty : ({ bareSettings with connectors := .empty } : Settings).Proper :=
    ⟨.nil, fun e he => (List.not_mem_nil he).elim⟩
  have hplain : bareSettings.toJson.Plain := by
    have htoJson : bareSettings.toJson = .obj
        [("connectors", .obj [("", .obj []), ("tide", .obj [("depth", .null),
            ("http_auth_password", .str ""),
            ("port", .obj [("a", .arr []), ("b", .bool false)])])]),
          ("logging", .obj [("json_format", .bool false), ("level", .str "")]),
          ("modules", .obj [("auto_load", .bool false), ("directory", .str ""),
            ("load_timeout_secs", .int 0), ("loader", .str "library"), ("whitelist", .arr [])]),
          ("server", .obj [("fail_fast", .bool false), ("services", .arr [])])] := rfl
    simp [htoJson, Json.Plain, Json.PlainItems, Json.PlainMembers]
  obtain ⟨hvalue, htext, -, -⟩ := read_back bareSettings hproper
  exact ⟨hproper, hvalue, htext hplain (by decide), hempty, (read_back _ hempty).1⟩

end ModularHost

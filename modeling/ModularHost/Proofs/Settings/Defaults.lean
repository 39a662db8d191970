import ModularHost.Proofs.Json.Records
import ModularHost.Settings.File
/-!
# What is left out of settings

Settings are read from a JSON value, from a JSON text or from a file. A field that a document leaves
out has its default, whether or not the document gives the field's table and whatever else it says
there (`SettingsDocument.read_of_leavesOut`). There is one exception, the services: a document that
gives the table without them has none, where the default table has one.
-/


namespace ModularHost

/-! ## Tables and fields -/

/-- The three tables whose fields are fixed. -/
inductive SettingsTable where
  | server
  | modules
  | logging
deriving DecidableEq, Repr

namespace SettingsTable

def name : SettingsTable → String
  | .server => "server"
  | .modules => "modules"
  | .logging => "logging"

/-- Where the table stands if the tables are given in a list. -/
def place : SettingsTable → Nat
  | .server => 0
  | .modules => 1
  | .logging => 2

/-- What the table holds. -/
def Values : SettingsTable → Type
  | .server => ServerSettings
  | .modules => ModuleSettings
  | .logging => LoggingSettings

def decoder : (t : SettingsTable) → Json.Decoder t.Values
  | .server => ServerSettings.decoder
  | .modules => ModuleSettings.decoder
  | .logging => LoggingSettings.decoder

/-- The table of some settings. -/
def of : (t : SettingsTable) → Settings → t.Values
  | .server => Settings.server
  | .modules => Settings.modules
  | .logging => Settings.logging

/-- The table from which a given one is filled up: the default but for the services. -/
def blank : (t : SettingsTable) → t.Values
  | .server => ({ ServerSettings.default with services := [] } : ServerSettings)
  | .modules => ModuleSettings.default
  | .logging => LoggingSettings.default

end SettingsTable

/-- The fields of the tables. -/
inductive SettingsField where
  | services
  | failFast
  | directory
  | loader
  | autoLoad
  | whitelist
  | loadTimeoutSecs
  | level
  | jsonFormat
deriving DecidableEq, Repr

namespace SettingsField

def table : SettingsField → SettingsTable
  | .services | .failFast => .server
  | .directory | .loader | .autoLoad | .whitelist | .loadTimeoutSecs => .modules
  | .level | .jsonFormat => .logging

def name : SettingsField → String
  | .services => "services"
  | .failFast => "fail_fast"
  | .directory => "directory"
  | .loader => "loader"
  | .autoLoad => "auto_load"
  | .whitelist => "whitelist"
  | .loadTimeoutSecs => "load_timeout_secs"
  | .level => "level"
  | .jsonFormat => "json_format"

/-- Where the field stands if its table is given as a list. -/
def place : SettingsField → Nat
  | .services | .directory | .level => 0
  | .failFast | .loader | .jsonFormat => 1
  | .autoLoad => 2
  | .whitelist => 3
  | .loadTimeoutSecs => 4

/-- Two tables have the same value for the field. -/
def Same : (f : SettingsField) → f.table.Values → f.table.Values → Prop
  | .services, (v : ServerSettings), (w : ServerSettings) => v.services = w.services
  | .failFast, (v : ServerSettings), (w : ServerSettings) => v.failFast = w.failFast
  | .directory, (v : ModuleSettings), (w : ModuleSettings) => v.directory = w.directory
  | .loader, (v : ModuleSettings), (w : ModuleSettings) => v.loader = w.loader
  | .autoLoad, (v : ModuleSettings), (w : ModuleSettings) => v.autoLoad = w.autoLoad
  | .whitelist, (v : ModuleSettings), (w : ModuleSettings) => v.whitelist = w.whitelist
  | .loadTimeoutSecs, (v : ModuleSettings), (w : ModuleSettings) =>
    v.loadTimeoutSecs = w.loadTimeoutSecs
  | .level, (v : LoggingSettings), (w : LoggingSettings) => v.level = w.level
  | .jsonFormat, (v : LoggingSettings), (w : LoggingSettings) => v.jsonFormat = w.jsonFormat

end SettingsField

/-! ## Documents -/

/-- What settings are read from. -/
inductive SettingsDocument where
  | value (v : Json)
  | text (s : String)
  | file (s : String)

namespace SettingsDocument

/-- The settings, if the document can be decoded. -/
def read : SettingsDocument → Option Settings
  | .value v => (Settings.decoder.decode v).toOption
  | .text s => (Settings.decoder.decodeText s).toOption
  | .file s => (Settings.ofDocument s).toOption

/-- What the document is decoded from; nothing if a file is no document at all. -/
def source? : SettingsDocument → Option Json.Source
  | .value v => some (.tree .json v)
  | .text s => some (.text Json.depthLimit s.toList)
  | .file s => (Toml.parse s).map (.tree .toml)

/-- The document gives a table. -/
def Gives (d : SettingsDocument) (t : SettingsTable) (part : Json.Source) : Prop :=
  ∃ src, d.source? = some src ∧ src.Gives t.name t.place part

/-- The document does not give a field, be its table there or not. -/
def LeavesOut (d : SettingsDocument) (f : SettingsField) : Prop :=
  ∀ table part, d.Gives f.table table → ¬ table.Gives f.name f.place part

end SettingsDocument

/-! ## Tables are skipped as they are read -/

section Skips

open Json.Decoder

theorem ServerSettings.skips_fields : ∀ f ∈ fields, f.value.Skips :=
  List.forall_iff_forall_mem.1
    ⟨skips_map (skips_list (skips_scalar _ _)) _, skips_map (skips_scalar _ _) _⟩

theorem ModuleSettings.skips_fields : ∀ f ∈ fields, f.value.Skips :=
  List.forall_iff_forall_mem.1
    ⟨skips_map (skips_scalar _ _) _, skips_map (skips_variants _) _, skips_map (skips_scalar _ _) _,
      skips_map (skips_list (skips_scalar _ _)) _, skips_map (skips_scalar _ _) _⟩

theorem LoggingSettings.skips_fields : ∀ f ∈ fields, f.value.Skips :=
  List.forall_iff_forall_mem.1
    ⟨skips_map (skips_scalar _ _) _, skips_map (skips_scalar _ _) _⟩

theorem ConnectorSection.skips_fields : ∀ f ∈ fields, f.value.Skips := by
  have hfield : ∀ {set : Option String → ConnectorSection → ConnectorSection},
      ((optional string).map set).Skips := skips_map (skips_optional (skips_scalar _ _)) _
  exact List.forall_iff_forall_mem.1 ⟨hfield, hfield, hfield, hfield⟩

theorem ConnectorSections.skips_decoder : ConnectorSections.decoder.Skips :=
  skips_map (skips_dictionary (skips_openRecord ConnectorSection.skips_fields)) _

theorem Settings.skips_fields : ∀ f ∈ fields, f.value.Skips :=
  List.forall_iff_forall_mem.1
    ⟨skips_map (skips_record ServerSettings.skips_fields) _,
      skips_map (skips_record ModuleSettings.skips_fields) _,
      skips_map (skips_record LoggingSettings.skips_fields) _,
      skips_map ConnectorSections.skips_decoder _⟩

end Skips

/-! ## Decoding -/

section Decoding

open Json.Decoder

variable {src part : Json.Source} {s : Settings}

/-- **A field that its table leaves out is that of the blank.** -/
theorem SettingsField.same_blank (f : SettingsField) {v : f.table.Values}
    (h : f.table.decoder.decodeFrom part = .ok v) (hout : ∀ p, ¬ part.Gives f.name f.place p) :
    f.Same v f.table.blank := by
  cases f with
  | services =>
    exact record_left_out ServerSettings.skips_fields (by decide) (·.services) 0 rfl
      (RecordField.spares_of_set fun _ _ => rfl) h hout
  | failFast =>
    exact record_left_out ServerSettings.skips_fields (by decide) (·.failFast) 1 rfl
      (RecordField.spares_of_set fun _ _ => rfl) h hout
  | directory =>
    exact record_left_out ModuleSettings.skips_fields (by decide) (·.directory) 0 rfl
      ⟨RecordField.spares_of_set fun _ _ => rfl, RecordField.spares_of_set fun _ _ => rfl,
        RecordField.spares_of_set fun _ _ => rfl, RecordField.spares_of_set fun _ _ => rfl⟩ h hout
  | loader =>
    exact record_left_out ModuleSettings.skips_fields (by decide) (·.loader) 1 rfl
      ⟨RecordField.spares_of_set fun _ _ => rfl, RecordField.spares_of_set fun _ _ => rfl,
        RecordField.spares_of_set fun _ _ => rfl, RecordField.spares_of_set fun _ _ => rfl⟩ h hout
  | autoLoad =>
    exact record_left_out ModuleSettings.skips_fields (by decide) (·.autoLoad) 2 rfl
      ⟨RecordField.spares_of_set fun _ _ => rfl, RecordField.spares_of_set fun _ _ => rfl,
        RecordField.spares_of_set fun _ _ => rfl, RecordField.spares_of_set fun _ _ => rfl⟩ h hout
  | whitelist =>
    exact record_left_out ModuleSettings.skips_fields (by decide) (·.whitelist) 3 rfl
      ⟨RecordField.spares_of_set fun _ _ => rfl, RecordField.spares_of_set fun _ _ => rfl,
        RecordField.spares_of_set fun _ _ => rfl, RecordField.spares_of_set fun _ _ => rfl⟩ h hout
  | loadTimeoutSecs =>
    exact record_left_out ModuleSettings.skips_fields (by decide) (·.loadTimeoutSecs) 4 rfl
      ⟨RecordField.spares_of_set fun _ _ => rfl, RecordField.spares_of_set fun _ _ => rfl,
        RecordField.spares_of_set fun _ _ => rfl, RecordField.spares_of_set fun _ _ => rfl⟩ h hout
  | level =>
    exact record_left_out LoggingSettings.skips_fields (by decide) (·.level) 0 rfl
      (RecordField.spares_of_set fun _ _ => rfl) h hout
  | jsonFormat =>
    exact record_left_out LoggingSettings.skips_fields (by decide) (·.jsonFormat) 1 rfl
      (RecordField.spares_of_set fun _ _ => rfl) h hout

/-- But for the services, what a table is filled up from are its defaults. -/
theorem SettingsField.default_same_blank (f : SettingsField) (hf : f ≠ .services) :
    f.Same (f.table.of .default) f.table.blank := by
  cases f with
  | services => exact absurd rfl hf
  | failFast | directory | loader | autoLoad | whitelist | loadTimeoutSecs | level | jsonFormat =>
    rfl

theorem SettingsField.Same.of_same {f : SettingsField} {u v w : f.table.Values} (huw : f.Same u w)
    (hvw : f.Same v w) : f.Same u v := by
  cases f <;> exact Eq.trans huw (Eq.symm hvw)

/-- What every value given for a table is, and the default or a value given, the table is. -/
theorem SettingsTable.holds (t : SettingsTable) {P : t.Values → Prop}
    (h : Settings.decoder.decodeFrom src = .ok s)
    (hpart : ∀ part v, src.Gives t.name t.place part → t.decoder.decodeFrom part = .ok v → P v)
    (hstart : P (t.of .default) ∨ ∃ part, src.Gives t.name t.place part) : P (t.of s) := by
  have hvalue : ∀ part v, src.Gives t.name t.place part → t.decoder.decodeFrom part = .ok v →
      Settings → P v := fun part v hgives hv _ => hpart part v hgives hv
  cases t with
  | server =>
    exact record_get Settings.skips_fields (by decide) Settings.server 0 rfl
      ⟨RecordField.spares_of_set fun _ _ => rfl, RecordField.spares_of_set fun _ _ => rfl,
        RecordField.spares_of_set fun _ _ => rfl⟩ h hvalue hstart
  | modules =>
    exact record_get Settings.skips_fields (by decide) Settings.modules 1 rfl
      ⟨RecordField.spares_of_set fun _ _ => rfl, RecordField.spares_of_set fun _ _ => rfl,
        RecordField.spares_of_set fun _ _ => rfl⟩ h hvalue hstart
  | logging =>
    exact record_get Settings.skips_fields (by decide) Settings.logging 2 rfl
      ⟨RecordField.spares_of_set fun _ _ => rfl, RecordField.spares_of_set fun _ _ => rfl,
        RecordField.spares_of_set fun _ _ => rfl⟩ h hvalue hstart

end Decoding

namespace SettingsDocument

variable {d : SettingsDocument} {s : Settings}

theorem decodeFrom_of_read (h : d.read = some s) :
    ∃ src, d.source? = some src ∧ Settings.decoder.decodeFrom src = .ok s := by
  have hok : ∀ {ε : Type} {r : Except ε Settings}, r.toOption = some s → r = .ok s := by
    intro ε r hr
    cases r with
    | error e => cases hr
    | ok s' =>
      cases hr
      rfl
  cases d with
  | value v => exact ⟨_, rfl, hok h⟩
  | text t =>
    obtain ⟨⟨s', rest⟩, hread, hend⟩ := Json.bind_eq_ok_iff.1 (hok h)
    obtain ⟨-, -, heq⟩ := Json.bind_eq_ok_iff.1 hend
    cases heq
    exact ⟨_, rfl, Json.map_eq_ok_iff.2 ⟨_, hread, rfl⟩⟩
  | file t =>
    have hfile := hok h
    unfold Settings.ofDocument at hfile
    cases hparse : Toml.parse t with
    | none =>
      rw [hparse] at hfile
      cases hfile
    | some tree =>
      rw [hparse] at hfile
      cases htree : Settings.decoder.ofTree .toml tree with
      | error e =>
        simp only [htree] at hfile
        cases hfile
      | ok s' =>
        simp only [htree] at hfile
        cases hfile
        exact ⟨.tree .toml tree, by rw [source?, hparse]; rfl, htree⟩

/-- **What a document leaves out has its default**, but for the services where their table is
given: there are none then. -/
theorem read_of_leavesOut (h : d.read = some s) (f : SettingsField) (hout : d.LeavesOut f) :
    (¬ (f = .services ∧ ∃ part, d.Gives .server part) →
      f.Same (f.table.of s) (f.table.of .default)) ∧
    (f = .services ∧ (∃ part, d.Gives .server part) → s.server.services = []) := by
  obtain ⟨src, hsrc, hdecode⟩ := decodeFrom_of_read h
  have hblank : ∀ part v, src.Gives f.table.name f.table.place part →
      f.table.decoder.decodeFrom part = .ok v → f.Same v f.table.blank :=
    fun part v hpart hv => f.same_blank hv fun p => hout part p ⟨src, hsrc, hpart⟩
  constructor
  · intro hexcept
    by_cases hf : f = .services
    · subst hf
      -- the blank has other services than the default, but here the table itself is the default
      have hnone : ∀ part, ¬ src.Gives "server" 0 part :=
        fun part hpart => hexcept ⟨rfl, part, src, hsrc, hpart⟩
      have hserver : s.server = ServerSettings.default :=
        SettingsTable.holds .server (P := fun v => v = ServerSettings.default) hdecode
          (fun part _ hpart => absurd hpart (hnone part)) (.inl rfl)
      exact congrArg ServerSettings.services hserver
    · have hdefault : f.Same (f.table.of .default) f.table.blank := f.default_same_blank hf
      have hsame : f.Same (f.table.of s) f.table.blank :=
        SettingsTable.holds f.table (P := fun v => f.Same v f.table.blank) hdecode hblank
          (.inl hdefault)
      exact hsame.of_same hdefault
  · rintro ⟨rfl, part, src', hsrc', hpart⟩
    rw [hsrc] at hsrc'
    cases hsrc'
    exact SettingsTable.holds .server (P := fun v => v.services = []) hdecode hblank
      (.inr ⟨part, hpart⟩)

/-- A value leaves a field out if no table of the field's name has a member of its name. -/
theorem leavesOut_value {f : SettingsField} {tables : List (String × Json)}
    (h : ∀ w, (f.table.name, w) ∈ tables →
      ∃ ms : List (String × Json), w = .obj ms ∧ ∀ x, (f.name, x) ∉ ms) :
    (value (.obj tables)).LeavesOut f := by
  rintro table part ⟨src, hsrc, htable⟩ hpart
  cases hsrc
  cases htable with
  | member hw =>
    obtain ⟨ms, rfl, hms⟩ := h _ hw
    cases hpart with
    | member hx => exact hms _ hx

/-- A document that gives two fields of a table, and no other table. -/
def partialModules : SettingsDocument :=
  .value (.obj [("modules", .obj [("directory", .str "/srv/grid/modules"),
    ("loader", .str "library")])])

theorem read_of_leavesOut_partialModules :
    ∃ s, partialModules.read = some s ∧ partialModules.LeavesOut .autoLoad ∧
      s.modules.autoLoad = true := by
  have hout : partialModules.LeavesOut .autoLoad := leavesOut_value fun w hw => by
    obtain ⟨-, rfl⟩ := Prod.mk.inj (List.mem_singleton.1 hw)
    exact ⟨_, rfl, by simp [SettingsField.name]⟩
  refine ⟨_, rfl, hout, ?_⟩
  refine (read_of_leavesOut rfl .autoLoad hout).1 ?_
  rintro ⟨hf, -⟩
  cases hf

/-- A document that gives the table of the services without them. -/
def bareServer : SettingsDocument := .value (.obj [("server", .obj [("fail_fast", .bool false)])])

/-- The services need not be the default ones where they are left out. -/
theorem bareServer_services : ∃ s, bareServer.read = some s ∧ bareServer.LeavesOut .services ∧
    s.server.services ≠ Settings.default.server.services := by
  have hout : bareServer.LeavesOut .services := leavesOut_value fun w hw => by
    obtain ⟨-, rfl⟩ := Prod.mk.inj (List.mem_singleton.1 hw)
    exact ⟨_, rfl, by simp [SettingsField.name]⟩
  exact ⟨_, rfl, hout, by decide⟩

end SettingsDocument
end ModularHost

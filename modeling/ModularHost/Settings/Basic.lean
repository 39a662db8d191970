import ModularHost.Connector.Section
import ModularHost.Path
import ModularHost.Toml.Printer
/-!
# Settings

What a host is configured with, in four tables. A table that is not given stands for its defaults as
a whole; a table that is given may leave out fields that have a default of their own, which is not
in every case the one the whole table would have had.
-/

namespace ModularHost

structure ServerSettings where
  /-- The connectors to bring up, by the names of their sections. -/
  services : List String
  /-- Whether the first connector that fails ends the start. -/
  failFast : Bool
deriving DecidableEq, Repr

/-- Where modules come from. -/
inductive LoaderKind where
  | library
  | linked
deriving DecidableEq, Repr

structure ModuleSettings where
  directory : Path
  loader : LoaderKind
  /-- Whether modules are loaded at the start. -/
  autoLoad : Bool
  /-- The modules to load; all if there are none. -/
  whitelist : List String
  /-- How long a load may take; zero is no limit. -/
  loadTimeoutSecs : UInt64
deriving DecidableEq

structure LoggingSettings where
  level : String
  jsonFormat : Bool
deriving DecidableEq, Repr

structure Settings where
  server : ServerSettings
  modules : ModuleSettings
  logging : LoggingSettings
  connectors : ConnectorSections

/-! ## Defaults -/

def ServerSettings.default : ServerSettings := ⟨["AssetService"], true⟩

def ModuleSettings.default : ModuleSettings := ⟨⟨"modules"⟩, .linked, true, [], 30⟩

def LoggingSettings.default : LoggingSettings := ⟨"info", false⟩

def Settings.default : Settings :=
  ⟨.default, .default, .default,
    ⟨[("AssetService", .ofImplementation "MemoryAssetService")]⟩⟩

/-! ## Reading and writing -/

/-- The loaders under their names. -/
def LoaderKind.table : List (String × LoaderKind) := [("library", .library), ("static", .linked)]

def LoaderKind.name : LoaderKind → String
  | .library => "library"
  | .linked => "static"

open Json.Decoder in
def ServerSettings.fields : List (RecordField ServerSettings) :=
  [.absentable "services" (list string) fun v s => { s with services := v },
   .absentable "fail_fast" bool fun v s => { s with failFast := v }]

open Json.Decoder in
def ServerSettings.decoder : Json.Decoder ServerSettings :=
  record "struct ServerSettings" ⟨[], ServerSettings.default.failFast⟩ ServerSettings.fields

open Json.Decoder in
def ModuleSettings.fields : List (RecordField ModuleSettings) :=
  [.needed "directory" (text "path string") fun v s => { s with directory := ⟨v⟩ },
   .absentable "loader" (variants LoaderKind.table) fun v s => { s with loader := v },
   .absentable "auto_load" bool fun v s => { s with autoLoad := v },
   .absentable "whitelist" (list string) fun v s => { s with whitelist := v },
   .absentable "load_timeout_secs" (integer 0 18446744073709551615 "u64")
     fun v s => { s with loadTimeoutSecs := .ofNat v.toNat }]

open Json.Decoder in
def ModuleSettings.decoder : Json.Decoder ModuleSettings :=
  record "struct ModuleSettings" .default ModuleSettings.fields

open Json.Decoder in
def LoggingSettings.fields : List (RecordField LoggingSettings) :=
  [.absentable "level" string fun v s => { s with level := v },
   .absentable "json_format" bool fun v s => { s with jsonFormat := v }]

open Json.Decoder in
def LoggingSettings.decoder : Json.Decoder LoggingSettings :=
  record "struct LoggingSettings" .default LoggingSettings.fields

open Json.Decoder in
def Settings.fields : List (RecordField Settings) :=
  [.absentable "server" ServerSettings.decoder fun v s => { s with server := v },
   .absentable "modules" ModuleSettings.decoder fun v s => { s with modules := v },
   .absentable "logging" LoggingSettings.decoder fun v s => { s with logging := v },
   .absentable "connectors" ConnectorSections.decoder fun v s => { s with connectors := v }]

open Json.Decoder in
def Settings.decoder : Json.Decoder Settings :=
  record "struct Config" .default Settings.fields

/-- The members of the three fixed tables, in the order of the fields. -/
def ServerSettings.members (s : ServerSettings) : List (String × Json) :=
  [("services", .arr (s.services.map .str)), ("fail_fast", .bool s.failFast)]

def ModuleSettings.members (s : ModuleSettings) : List (String × Json) :=
  [("directory", .str s.directory.text), ("loader", .str s.loader.name),
   ("auto_load", .bool s.autoLoad), ("whitelist", .arr (s.whitelist.map .str)),
   ("load_timeout_secs", .int s.loadTimeoutSecs.toNat)]

def LoggingSettings.members (s : LoggingSettings) : List (String × Json) :=
  [("level", .str s.level), ("json_format", .bool s.jsonFormat)]

namespace Settings

def toJson (s : Settings) : Json :=
  .ofMembers [("server", .ofMembers s.server.members), ("modules", .ofMembers s.modules.members),
    ("logging", .ofMembers s.logging.members), ("connectors", s.connectors.toJson)]

/-- The settings as a document. -/
def sections (s : Settings) : List Toml.Section :=
  [⟨["server"], s.server.members⟩, ⟨["modules"], s.modules.members⟩,
   ⟨["logging"], s.logging.members⟩]
    ++ s.connectors.entries.map fun (name, s) =>
      ⟨["connectors", name], (s.toJson.members?).getD []⟩

/-- The text of a file with the default settings. -/
def defaultText : String := Toml.printDocument Settings.default.sections

/-! ## Judging -/

/-- The services that the host has connectors for. -/
def knownServices : List String := ["AssetService"]

/-- What is wrong with settings that can be read. -/
inductive Objection where
  | unknownService (name : String)
  | emptyDirectory
deriving DecidableEq, Repr

def Objection.message : Objection → String
  | .unknownService name =>
    s!"unknown service '{name}' (known: " ++ ", ".intercalate knownServices ++ ")"
  | .emptyDirectory => "module directory cannot be empty"

/-- What can be judged before anything is loaded. -/
def validate (s : Settings) : Except Objection Unit :=
  match s.server.services.find? fun name => !knownServices.contains name with
  | some name => .error (.unknownService name)
  | none => if s.modules.directory.text.isEmpty then .error .emptyDirectory else .ok ()

end Settings
end ModularHost

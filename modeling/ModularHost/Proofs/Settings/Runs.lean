import ModularHost.Proofs.FileTree
import ModularHost.Proofs.Toml.Printing
import ModularHost.Settings.File
/-!
# Runs on one settings file

The first run on a file that is not there writes the default settings into it and goes on with them;
every later run reads them back from the text (`Settings.ofDocument_defaultText`). What a command
line says is laid over the settings after that and before they are judged. So each run has what its
own command line makes of the defaults, whichever runs were before it, and none but the first
changes a file (`Settings.loads_of_new_file`).
-/


namespace ModularHost
namespace Settings

open Toml

/-! ## The text of the defaults -/

/-- The sections of a file with the default settings. -/
theorem sections_default : Settings.default.sections =
    [⟨["server"], ServerSettings.default.members⟩, ⟨["modules"], ModuleSettings.default.members⟩,
     ⟨["logging"], LoggingSettings.default.members⟩,
     ⟨["connectors", "AssetService"], [("implementation", .str "MemoryAssetService")]⟩] := rfl

theorem legible_default : ∀ s ∈ Settings.default.sections, s.Legible := by
  have hserver : ∀ m ∈ ServerSettings.default.members, Legible m.2 :=
    List.forall_iff_forall_mem.1 ⟨.texts _, .bool _⟩
  have hmodules : ∀ m ∈ ModuleSettings.default.members, Legible m.2 :=
    List.forall_iff_forall_mem.1
      ⟨.text _, .text _, .bool _, .texts _, .number (by decide)⟩
  have hlogging : ∀ m ∈ LoggingSettings.default.members, Legible m.2 :=
    List.forall_iff_forall_mem.1 ⟨.text _, .bool _⟩
  have hconnector : ∀ m ∈ [("implementation", Json.str "MemoryAssetService")], Legible m.2 :=
    List.forall_mem_singleton.2 (.text _)
  rw [sections_default]
  exact List.forall_iff_forall_mem.1
    ⟨⟨by decide, by decide, hserver⟩, ⟨by decide, by decide, hmodules⟩,
      ⟨by decide, by decide, hlogging⟩, ⟨by decide, by decide, hconnector⟩⟩

/-- The text says what it was printed from, table by table. -/
theorem parse_defaultText : parse defaultText = some (.obj
    [("server", .obj ServerSettings.default.members),
     ("modules", .obj ModuleSettings.default.members),
     ("logging", .obj LoggingSettings.default.members),
     ("connectors",
       .obj [("AssetService", .obj [("implementation", .str "MemoryAssetService")])])]) := by
  let server := Entries.ofMembers ServerSettings.default.members
  let modules := Entries.ofMembers ModuleSettings.default.members
  let logging := Entries.ofMembers LoggingSettings.default.members
  let connector := Entries.ofMembers [("implementation", .str "MemoryAssetService")]
  -- each header closes the table in front of it
  have hserver : Section.fill ⟨["server"], ServerSettings.default.members⟩ .empty =
      some ⟨[], ["server"], false, server⟩ :=
    Section.fill_of_openTable rfl (by decide)
  have hmodules : Section.fill ⟨["modules"], ModuleSettings.default.members⟩
      ⟨[], ["server"], false, server⟩ =
        some ⟨[("server", .table .header server)], ["modules"], false, modules⟩ :=
    Section.fill_of_openTable rfl (by decide)
  have hlogging : Section.fill ⟨["logging"], LoggingSettings.default.members⟩
      ⟨[("server", .table .header server)], ["modules"], false, modules⟩ =
        some ⟨[("server", .table .header server), ("modules", .table .header modules)],
          ["logging"], false, logging⟩ :=
    Section.fill_of_openTable rfl (by decide)
  -- the table of the connectors comes about on the way to the first of them
  have hconnector : Section.fill
      ⟨["connectors", "AssetService"], [("implementation", .str "MemoryAssetService")]⟩
      ⟨[("server", .table .header server), ("modules", .table .header modules)], ["logging"],
        false, logging⟩ =
        some ⟨[("server", .table .header server), ("modules", .table .header modules),
          ("logging", .table .header logging), ("connectors", .table ⟨true, false⟩ [])],
          ["connectors", "AssetService"], false, connector⟩ :=
    Section.fill_of_openTable rfl (by decide)
  have hfill : Settings.default.sections.foldlM (fun d s => s.fill d) .empty =
      some ⟨[("server", .table .header server), ("modules", .table .header modules),
        ("logging", .table .header logging), ("connectors", .table ⟨true, false⟩ [])],
        ["connectors", "AssetService"], false, connector⟩ := by
    simp [sections_default, hserver, hmodules, hlogging, hconnector]
  exact (parse_printDocument legible_default hfill rfl).trans rfl

/-- **The text of the defaults stands for the defaults.** -/
theorem ofDocument_defaultText : ofDocument defaultText = .ok .default := by
  rw [ofDocument, parse_defaultText]
  rfl

/-! ## One run -/

/-- What a command line makes of settings. -/
def asked (s : Settings) (a : Arguments) : Except SettingsError Settings :=
  match (s.override a).validate with
  | .ok () => .ok (s.override a)
  | .error objection => .error (.rejected a.config objection)

/-- The defaults with what a command line says in their place. -/
def defaultWith (a : Arguments) : Settings :=
  { Settings.default with
    modules := { ModuleSettings.default with directory := a.modules.getD ⟨"modules"⟩ }
    logging := ⟨if a.debug then "debug" else "info", a.jsonLogs⟩ }

/-- **Of the defaults it makes settings unless it names an empty directory.** -/
theorem asked_default (a : Arguments) : Settings.default.asked a =
    if a.modules = some ⟨""⟩ then .error (.rejected a.config .emptyDirectory)
    else .ok (defaultWith a) := by
  have hoverride : Settings.default.override a = defaultWith a := by
    simp [override, defaultWith, Settings.default, ModuleSettings.default, LoggingSettings.default]
  have hknown : (defaultWith a).server.services.find? (fun name => !knownServices.contains name) =
      none := rfl
  have hempty : (defaultWith a).modules.directory.text.isEmpty = true ↔
      a.modules = some ⟨""⟩ := by
    cases hmodules : a.modules with
    | none => simp [defaultWith, hmodules]
    | some directory =>
      obtain ⟨text⟩ := directory
      simp [defaultWith, hmodules]
  rw [asked, hoverride, validate, hknown]
  dsimp only
  by_cases hdirectory : a.modules = some ⟨""⟩
  · rw [if_pos hdirectory, if_pos (hempty.2 hdirectory)]
  · rw [if_neg hdirectory, if_neg (mt hempty.1 hdirectory)]

section Load

variable {γ : Type} {files created : FileTree γ} {a : Arguments}

/-- The command line has no say in what is found or written. -/
theorem load_eq (files : FileTree γ) (a : Arguments) :
    load files a = ((readOrCreate files a.config).1.bind (·.asked a),
      (readOrCreate files a.config).2) := rfl

/-- A run on a file with the defaults reads them, and changes nothing. -/
theorem load_of_defaultText (h : files.find? a.config = some (.text defaultText)) :
    load files a = (Settings.default.asked a, files) := by
  rw [load_eq, readOrCreate, h]
  dsimp only
  rw [ofDocument_defaultText]
  rfl

/-- A run without a file writes one with the defaults, whatever the command line says. -/
theorem load_of_new_file (hnew : files.find? a.config = none)
    (hwrite : files.write? a.config defaultText = some created) :
    load files a = (Settings.default.asked a, created) := by
  rw [load_eq, readOrCreate, hnew, hwrite]
  rfl

end Load

/-! ## Any number of runs -/

/-- One run after the other: what each gives, and the files after it. -/
def loadEach {γ : Type} (files : FileTree γ) :
    List Arguments → List (Except SettingsError Settings × FileTree γ)
  | [] => []
  | a :: runs => load files a :: loadEach (load files a).2 runs

variable {γ : Type} {files created : FileTree γ} {file : Path}

/-- Runs on a file with the defaults know nothing of each other. -/
theorem loadEach_of_defaultText (hfile : files.find? file = some (.text defaultText))
    {runs : List Arguments} (hruns : ∀ a ∈ runs, a.config = file) :
    loadEach files runs = runs.map fun a => (Settings.default.asked a, files) := by
  induction runs with
  | nil => rfl
  | cons a runs ih =>
    obtain ⟨ha, hlater⟩ := List.forall_mem_cons.1 hruns
    rw [loadEach, load_of_defaultText (ha ▸ hfile), ih hlater, List.map_cons]

/-- **Every run has what its own command line makes of the defaults.** On a path where a file can be
written and none is, the first run writes the defaults, and the files stay as they are from then
on, whether the runs end with settings or with an objection. What a run gives depends on nothing but
its own command line: the run that writes the file and those that read it are alike. It is the
defaults with what the command line says in their place, unless that is an empty directory. -/
theorem loads_of_new_file (hnew : files.exists file = false)
    (hwrite : files.write? file defaultText = some created) :
    created.find? file = some (.text defaultText) ∧
    ∀ runs : List Arguments, (∀ a ∈ runs, a.config = file) →
      loadEach files runs = runs.map (fun a => (Settings.default.asked a, created)) ∧
      ∀ a ∈ runs, Settings.default.asked a =
        if a.modules = some ⟨""⟩ then .error (.rejected file .emptyDirectory)
        else .ok (defaultWith a) := by
  have hcreated : created.find? file = some (.text defaultText) :=
    FileTree.find?_of_write? hwrite
  have hnone : files.find? file = none := by simpa [FileTree.exists] using hnew
  refine ⟨hcreated, fun runs hruns => ⟨?_, fun a ha => hruns a ha ▸ asked_default a⟩⟩
  cases runs with
  | nil => rfl
  | cons a runs =>
    obtain ⟨rfl, hlater⟩ := List.forall_mem_cons.1 hruns
    rw [loadEach, load_of_new_file hnone hwrite, loadEach_of_defaultText hcreated hlater,
      List.map_cons]

/-- Runs with a level of their own, without a directory for the modules, and with one. -/
def threeRuns : List Arguments :=
  [⟨⟨"grid.toml"⟩, none, true, false⟩, ⟨⟨"grid.toml"⟩, some ⟨""⟩, true, true⟩,
   ⟨⟨"grid.toml"⟩, some ⟨"/srv/grid/modules"⟩, false, true⟩]

theorem loads_of_new_file_threeRuns : ∃ created : FileTree Unit,
    FileTree.empty.exists (γ := Unit) ⟨"grid.toml"⟩ = false ∧
    FileTree.empty.write? ⟨"grid.toml"⟩ defaultText = some created ∧
    loadEach FileTree.empty threeRuns =
      [(.ok { Settings.default with logging := ⟨"debug", false⟩ }, created),
       (.error (.rejected ⟨"grid.toml"⟩ .emptyDirectory), created),
       (.ok { Settings.default with
          modules := { ModuleSettings.default with directory := ⟨"/srv/grid/modules"⟩ }
          logging := ⟨"info", true⟩ }, created)] := by
  have hnew : FileTree.empty.exists (γ := Unit) ⟨"grid.toml"⟩ = false := by decide
  refine ⟨_, hnew, rfl, ?_⟩
  exact ((loads_of_new_file hnew rfl).2 threeRuns (by decide)).1.trans rfl

end Settings
end ModularHost

import ModularHost.FileTree
import ModularHost.Settings.Arguments
import ModularHost.Settings.Basic
import ModularHost.Toml.Reader
/-!
# Loading settings

Settings come from a file. Where there is none, one with the defaults is written first. What the
command line says goes over the settings after that and never into the file.
-/

namespace ModularHost

/-- Why there are no settings. -/
inductive SettingsError where
  /-- The file cannot be read or written. -/
  | io
  /-- The file is no document. -/
  | malformed
  /-- The document does not say what it should. -/
  | unfit (fault : Json.Fault)
  | rejected (file : Path) (objection : Settings.Objection)
deriving DecidableEq, Repr

/-- What is wrong, where it can be said in words. -/
def SettingsError.message? : SettingsError → Option String
  | .io | .malformed | .unfit .notOneVariant => none
  | .unfit fault => some (fault.message .toml)
  | .rejected file objection =>
    some s!"Invalid configuration {file.text}: {objection.message}"

namespace Settings

/-- The settings a document stands for. -/
def ofDocument (text : String) : Except SettingsError Settings :=
  match Toml.parse text with
  | none => .error .malformed
  | some tree => (decoder.ofTree .toml tree).mapError .unfit

/-- What the command line says goes over the settings. -/
def override (s : Settings) (a : Arguments) : Settings :=
  { s with
    modules := { s.modules with directory := a.modules.getD s.modules.directory }
    logging :=
      { level := if a.debug then "debug" else s.logging.level
        jsonFormat := a.jsonLogs || s.logging.jsonFormat } }

/-- The settings in a file, or the defaults, which are written where there is no file. -/
def readOrCreate {γ : Type} (files : FileTree γ) (file : Path) :
    Except SettingsError Settings × FileTree γ :=
  match files.find? file with
  | some (.text content) => (ofDocument content, files)
  | some _ => (.error .io, files)
  | none =>
    match files.write? file defaultText with
    | some files => (.ok .default, files)
    | none => (.error .io, files)

/-- The settings that a command line asks for. -/
def load {γ : Type} (files : FileTree γ) (a : Arguments) :
    Except SettingsError Settings × FileTree γ :=
  let (found, files) := readOrCreate files a.config
  (do
    let s := (← found).override a
    match s.validate with
    | .ok () => return s
    | .error objection => .error (.rejected a.config objection), files)

end Settings
end ModularHost

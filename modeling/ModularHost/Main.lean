import ModularHost.Server.Basic
import ModularHost.Settings.File
/-!
# The command line

Reads the arguments and the settings file, starts a server, and stops it when standard input ends.
Only the settings file is looked at, so a server started here finds linked modules and no libraries.
-/

namespace ModularHost

def usage : String :=
  "Usage: grid_server [OPTIONS]\n\n"
    ++ "Options:\n"
    ++ "  -c, --config <CONFIG>    Settings file; written with the defaults if there is none\n"
    ++ "                           [default: grid.toml]\n"
    ++ "  -m, --modules <MODULES>  Module directory, in place of the one in the settings\n"
    ++ "  -d, --debug              Log for debugging\n"
    ++ "      --json-logs          Log in JSON\n"
    ++ "  -h, --help               Print help\n"
    ++ "  -V, --version            Print version"

/-- What is wrong with the arguments; nothing when they ask for a text to be printed. -/
def ArgumentError.message? : ArgumentError → Option String
  | .unknownArgument => some "unexpected argument"
  | .invalidValue => some "a value is required"
  | .conflict => some "an option cannot be used multiple times"
  | .tooManyValues => some "unexpected value for an option that takes none"
  | .help | .version => none

/-- The settings file in a tree of its own. What is there and cannot be read stands as a directory;
where nothing is, the directories on the way are taken to exist. -/
def surveyFile (file : Path) : IO (FileTree (Library Implementation)) := do
  try
    return FileTree.empty.plant file (.text (← IO.FS.readFile file.text))
  catch
    | .noFileOrDirectory .. => return FileTree.empty.makeParents file
    | _ => return FileTree.empty.plant file .directory

/-- Writes the settings file if the tree has one that it did not have before. -/
def keepFile (file : Path) (before after : FileTree (Library Implementation)) : IO Unit :=
  match before.find? file, after.find? file with
  | none, some (.text content) => IO.FS.writeFile file.text content
  | _, _ => return ()

/-- Waits until there is no more input. -/
partial def awaitEnd (input : IO.FS.Stream) : IO Unit := do
  if (← input.getLine).isEmpty then return () else awaitEnd input

/-- Does what the arguments say; answers the exit code. -/
def serve (a : Arguments) : IO UInt32 := do
  let files ← surveyFile a.config
  let (loaded, after) := Settings.load files a
  try keepFile a.config files after
  catch e =>
    IO.eprintln ("Error: " ++ toString e)
    return 1
  match loaded with
  | .error e =>
    IO.eprintln ("Error: " ++ e.message?.getD "the settings file cannot be used")
    return 1
  | .ok settings =>
    match (Server.start true after .empty settings).1 with
    | .error e =>
      IO.eprintln s!"Error: {e.message}"
      return 1
    | .ok server =>
      IO.println s!"Server running, {server.loaded.length} modules loaded"
      awaitEnd (← IO.getStdin)
      IO.println s!"Server stopped; {server.shutdown.records.length} module contexts unloaded"
      return 0

end ModularHost

def main (arguments : List String) : IO UInt32 := do
  match ModularHost.Arguments.parse ("grid_server" :: arguments) with
  | .ok a => ModularHost.serve a
  | .error .help =>
    IO.println ModularHost.usage
    return 0
  | .error .version =>
    IO.println "grid_server 0.1.0"
    return 0
  | .error e =>
    IO.eprintln ("error: " ++ e.message?.getD "")
    return 2

import ModularHost.Asset.Module
import ModularHost.Module.Discovery
import ModularHost.Settings.Basic
/-!
# The server

The order of a start matters: the host's types are published before any module loads, modules
register before connectors resolve, and connectors take their routes last. A module that does not
load is only recorded; a connector that does not come up ends the start, or is passed over, as the
settings say.
-/

namespace ModularHost

/-- Why a server does not start. -/
inductive ServerError where
  | rejected (objection : Settings.Objection)
  | unknownService (name : String)
  | discovery (error : DiscoveryError)
  | connector (service : String) (error : ConnectorError)
deriving DecidableEq, Repr

def ServerError.message : ServerError → String
  | .rejected objection => s!"Configuration error: {objection.message}"
  | .unknownService name => s!"Unknown service '{name}'"
  | .discovery e => e.message
  | .connector service e => s!"Connector [{service}] failed: {e.message}"

/-- The time a load may take, if there is a limit. -/
def ModuleSettings.loadTimeout (s : ModuleSettings) : Option Duration :=
  if s.loadTimeoutSecs = 0 then none else some (.ofSeconds s.loadTimeoutSecs.toNat)

/-- What to load, and for how long. -/
def ModuleSettings.loadOptions (s : ModuleSettings) : LoadOptions :=
  ⟨s.whitelist, s.loadTimeout⟩

def ModuleSettings.source (s : ModuleSettings) : ModuleSource Implementation :=
  match s.loader with
  | .library => .libraries
  | .linked => .linked linkedModules

/-- The kind of connector that fronts a service. -/
def connectorFor? : (service : String) → Option ConnectorKind
  | "AssetService" => some assetConnector
  | _ => none

structure Server where
  settings : Settings
  site : Site Implementation
  loader : Loader Implementation
  dispatcher : Dispatcher Handler
  /-- The connectors that came up, by the names of their sections. -/
  connectors : List String
  /-- Every load attempted so far, in order. -/
  records : List (ModuleRecord Implementation)

namespace Server

/-- A server that has done nothing yet. -/
def idle (settings : Settings) (files : FileTree (Library Implementation))
    (linker : Linker Implementation) : Server :=
  { settings
    site := ⟨.empty, frameworkScope, [], files, linker, rfl⟩
    loader := .new settings.modules.source
    dispatcher := .empty
    connectors := []
    records := [] }

/-- The records of modules that loaded. -/
def loaded (s : Server) : List (ModuleRecord Implementation) := s.records.filter (·.isLoaded)

/-- Takes the outcome of some loads in, and counts those that succeeded. -/
def extend (s : Server)
    (outcome : List (ModuleRecord Implementation) × Loader Implementation × Site Implementation) :
    Nat × Server :=
  let (records, loader, site) := outcome
  (records.countP (·.isLoaded), { s with loader, site, records := s.records ++ records })

/-- Loads the configured modules: every linked one, file or not, or the libraries that are found in
the directory. Answers how many loaded. -/
def loadModules (s : Server) (gateOpen : Bool) : Except ServerError (Nat × Server) :=
  let settings := s.settings.modules
  match settings.loader with
  | .linked =>
    .ok (s.extend (s.loader.loadPaths gateOpen s.site settings.loadOptions
      (linkedModules.paths settings.directory)))
  | .library =>
    match s.loader.loadDirectory gateOpen s.site settings.loadOptions settings.directory with
    | .ok outcome => .ok (s.extend outcome)
    | .error e => .error (.discovery e)

/-- Loads one more module. There is no record of a load that never ends. -/
def loadModule (s : Server) (gateOpen : Bool) (path : Path) :
    Option (ModuleRecord Implementation) × Server :=
  let (record, loader, site) :=
    s.loader.loadWithin gateOpen s.site path s.settings.modules.loadTimeout
  (record, { s with loader, site, records := s.records ++ record.toList })

/-- Brings one connector up. -/
def startConnector (s : Server) (service : String) : Except ServerError Unit × Server :=
  match connectorFor? service with
  | none => (.error (.unknownService service), s)
  | some kind =>
    match kind.bringUp service s.settings.connectors s.site.container s.dispatcher with
    | (.ok (_, dispatcher), container) =>
      (.ok (), { s with
        site := { s.site with container }
        dispatcher
        connectors := s.connectors ++ [service] })
    | (.error e, container) =>
      (.error (.connector service e), { s with site := { s.site with container } })

/-- Brings connectors up in order. -/
def startConnectors : List String → Server → Except ServerError Server
  | [], s => .ok s
  | service :: rest, s =>
    match s.startConnector service with
    | (.ok (), s) => startConnectors rest s
    | (.error e, s) =>
      if s.settings.server.failFast then .error e else startConnectors rest s

/-- Loads the modules, if that is to happen at the start. -/
def autoLoad (s : Server) (gateOpen : Bool) : Except ServerError Server :=
  if s.settings.modules.autoLoad then (s.loadModules gateOpen).map (·.2) else .ok s

/-- Starts a server. Libraries stay open whether it comes up or not. -/
def start (gateOpen : Bool) (files : FileTree (Library Implementation))
    (linker : Linker Implementation) (settings : Settings) :
    Except ServerError Server × Linker Implementation :=
  match settings.validate with
  | .error objection => (.error (.rejected objection), linker)
  | .ok () =>
    match (idle settings files linker).autoLoad gateOpen with
    | .error e => (.error e, linker)
    | .ok s => (startConnectors settings.server.services s, s.site.linker)

/-- Unloads the context of every record, those that came late included. Only the dispatcher and what
it serves are left. -/
def shutdown (s : Server) : Server :=
  let (late, loader) := s.loader.collect
  let records := s.records ++ late
  let site := (records.filterMap (·.context)).foldl
    (fun site id => (site.unload (fun _ => false) id).2) s.site
  { s with loader, site, records }

end Server
end ModularHost

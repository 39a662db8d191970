import ModularHost.Proofs.Container.Outright
import ModularHost.Proofs.FileName
import ModularHost.Proofs.Module.Advance
import ModularHost.Proofs.Module.Whitelist
import ModularHost.Server.Basic
/-!
# Loading what is linked

A host that takes its modules from the program itself has one module to load, and makes up a path
for it. That path stands for the module in every directory, whatever files there are, and the
whitelist lets it through exactly when it lists the module's name. So what the container holds
before any connector comes up is decided by the settings alone (`Server.autoLoad_linked`).
-/


namespace ModularHost

/-! ## The path of the asset module -/

/-- The path made up for the asset module in a directory. -/
def assetModulePath (directory : Path) : Path :=
  directory.join (assetModule.name ++ "." ++ ModuleTable.linkedExtension)

theorem linkedModules_paths (directory : Path) :
    linkedModules.paths directory = [assetModulePath directory] := by
  simp [ModuleTable.paths, ModuleTable.names, linkedModules, assetModulePath]

theorem stem?_assetModulePath (directory : Path) :
    (assetModulePath directory).stem? = some assetModule.name :=
  Path.Splits.stem?_join ⟨by decide, by decide, by decide, by decide⟩

/-- The path stands for the module. -/
theorem findForPath_assetModulePath (directory : Path) :
    linkedModules.findForPath (assetModulePath directory) = some assetModule := by
  rw [ModuleTable.findForPath, stem?_assetModulePath]
  rfl

/-- A whitelist lets the path through when it lists the module, or nothing. -/
theorem admits_assetModulePath (o : LoadOptions) (directory : Path) :
    o.admits (assetModulePath directory) = true ↔
      o.whitelist = [] ∨ assetModule.name ∈ o.whitelist := by
  have hspellings : (assetModulePath directory).spellings =
      [assetModule.name, assetModule.name] := by
    rw [Path.spellings, stem?_assetModulePath]
    rfl
  by_cases hempty : o.whitelist = []
  · simp [LoadOptions.admits, hempty]
  · rw [LoadOptions.admits_iff hempty, hspellings]
    simp [hempty]

/-! ## The load -/

/-- The container once the asset module has registered its services. -/
def assetContainer : Container Implementation :=
  (runRegistration true registerAssetServices .empty).2

theorem runRegistration_assetServices (gateOpen : Bool) :
    runRegistration gateOpen registerAssetServices .empty = (.completed, assetContainer) := by
  rfl

theorem bindings_assetContainer :
    assetContainer.bindings = boundBy 0 registerAssetServices := by
  obtain ⟨done, left, hsteps, hdone, hstop⟩ :=
    registers_run registerAssetServices (.empty : Container Implementation)
  -- the registration completes, so no step is left
  obtain rfl : left = [] := hstop
  rw [List.append_nil] at hsteps
  have hbindings := hdone.bindings
  rw [← hsteps, Container.bindings_empty, List.nil_append] at hbindings
  exact hbindings

theorem labels_assetContainer : assetContainer.labels =
    [(assetServiceContract, memoryServiceName), (assetServiceContract, nullServiceName)] := by
  rw [Container.labels, bindings_assetContainer]
  rfl

theorem outright_assetContainer : assetContainer.Outright := by
  rw [Container.Outright, bindings_assetContainer]
  simp [registerAssetServices, boundBy, Binding.new]

variable {settings : Settings} {gateOpen : Bool} {directory : Path} {s : Site Implementation}

/-- The asset module as the first of a context. What it requires are the framework's types. -/
def loadedAssetModule (id : ContextId) (directory : Path) : LoadedModule Implementation :=
  { name := assetModule.name
    version := assetModule.version
    path := assetModulePath directory
    context := id
    dependencies := frameworkScope.types
    exports := []
    registration := registerAssetServices
    lease := ⟨id, 0⟩ }

/-- Everything the asset module requires is there. -/
theorem load_assetModule (gateOpen : Bool) (id : ContextId)
    (files : FileTree (Library Implementation)) (linker : Linker Implementation)
    (directory : Path) :
    (LoadContext.new id (.linked linkedModules)).load gateOpen frameworkScope files linker
        (assetModulePath directory) =
      (.admitted ⟨id, .linked linkedModules, [loadedAssetModule id directory], [], false⟩
        (loadedAssetModule id directory), linker) := by
  simp only [LoadContext.load, LoadContext.new, ModuleSource.find,
    findForPath_assetModulePath directory]
  rfl

/-- The work of the load ends with the services registered. -/
theorem advance_assetModule (hhost : s.host = frameworkScope) (hcontainer : s.container = .empty) :
    (Work.advance gateOpen (.linked linkedModules) s
      (.queued (assetModulePath directory))).2.container = assetContainer := by
  obtain ⟨s', -, hsame, hadvance⟩ :=
    Work.advance_queued gateOpen (.linked linkedModules) s (assetModulePath directory)
  have hregistered : (runRegistration gateOpen registerAssetServices s'.container).2 =
      assetContainer := by
    rw [hsame, hcontainer, runRegistration_assetServices]
  rw [hadvance, hhost, load_assetModule]
  exact (Work.frame_register gateOpen s' _ _).2.trans hregistered

/-- Waiting for a load leaves the site as the load's work does. -/
theorem Loader.site_loadWithin {β : Type} (l : Loader β) (gateOpen : Bool) (s : Site β)
    (path : Path) (limit : Option Duration) : (l.loadWithin gateOpen s path limit).2.2 =
      (Work.advance gateOpen l.source s (.queued path)).2 := by
  have hbegun : ((l.begin path limit).loads[l.loads.length]?).bind (·.work) =
      some (.queued path) := by
    simp [begin]
  simp only [loadWithin, advance, hbegun]
  rcases hwork : Work.advance gateOpen (l.begin path limit).source s (.queued path) with
    ⟨record | - | work, s'⟩ <;> exact (congrArg Prod.snd hwork).symm

/-! ## Loading at the start -/

/-- The asset module is loaded at the start. -/
def ModuleSettings.LoadsAssets (s : ModuleSettings) : Prop :=
  s.autoLoad = true ∧ (s.whitelist = [] ∨ assetModule.name ∈ s.whitelist)

instance (s : ModuleSettings) : Decidable s.LoadsAssets :=
  inferInstanceAs (Decidable (_ ∧ (_ ∨ _)))

/-- The one path is loaded if it is let through. -/
theorem Loader.loadPaths_assetModule {l : Loader Implementation} (gateOpen : Bool) (o : LoadOptions)
    (directory : Path) (hsource : l.source = .linked linkedModules)
    (hhost : s.host = frameworkScope) (hcontainer : s.container = .empty) :
    (l.loadPaths gateOpen s o [assetModulePath directory]).2.2.container =
      if o.admits (assetModulePath directory) = true then assetContainer else .empty := by
  unfold loadPaths
  by_cases hadmits : o.admits (assetModulePath directory) = true
  · rw [if_pos hadmits, if_pos hadmits]
    have hsite := l.site_loadWithin gateOpen s (assetModulePath directory) o.timeout
    rw [hsource] at hsite
    exact (congrArg Site.container hsite).trans (advance_assetModule hhost hcontainer)
  · rw [if_neg hadmits, if_neg hadmits]
    exact hcontainer

namespace Server

/-- What the container of a host holds that has loaded its linked modules as the settings say. -/
theorem autoLoad_linked (gateOpen : Bool) (files : FileTree (Library Implementation))
    (linker : Linker Implementation) (hlinked : settings.modules.loader = .linked) :
    ∃ s : Server, (idle settings files linker).autoLoad gateOpen = .ok s ∧
      s.settings = settings ∧ s.dispatcher = .empty ∧ s.connectors = [] ∧
      s.site.container = if settings.modules.LoadsAssets then assetContainer else .empty := by
  have hadmits := admits_assetModulePath settings.modules.loadOptions settings.modules.directory
  have hsource : settings.modules.source = .linked linkedModules := by
    rw [ModuleSettings.source, hlinked]
  unfold autoLoad
  by_cases hauto : settings.modules.autoLoad = true
  · have hloaded := Loader.loadPaths_assetModule (l := (idle settings files linker).loader)
      (s := (idle settings files linker).site) gateOpen settings.modules.loadOptions
      settings.modules.directory hsource rfl rfl
    rw [if_pos (by exact hauto)]
    simp only [loadModules, idle, hlinked, linkedModules_paths]
    refine ⟨_, rfl, rfl, rfl, rfl, hloaded.trans ?_⟩
    by_cases hlet : settings.modules.loadOptions.admits (assetModulePath settings.modules.directory)
    · rw [if_pos hlet, if_pos ⟨hauto, hadmits.1 hlet⟩]
    · rw [if_neg hlet, if_neg fun h => hlet (hadmits.2 h.2)]
  · rw [if_neg (by exact hauto)]
    exact ⟨_, rfl, rfl, rfl, rfl, (if_neg fun h => hauto h.1).symm⟩

end Server
end ModularHost

import ModularHost.Module.Loader
/-!
# Discovery

The paths in a directory whose extension a source knows, in the order of paths. A directory that
does not exist holds nothing; what is no directory cannot be read.
-/

namespace ModularHost

/-- What was to be scanned is no directory. -/
structure DiscoveryError where
  directory : Path
deriving DecidableEq, Repr

def DiscoveryError.message (e : DiscoveryError) : String :=
  s!"Failed to read module directory {e.directory.text}: Not a directory (os error 20)"

/-- Whether a path has one of some extensions. -/
def Path.hasExtension (p : Path) (extensions : List String) : Bool :=
  match p.extension? with
  | none => false
  | some extension => extensions.contains extension

/-- The loadable paths in a directory. -/
def discoverModules {γ : Type} (files : FileTree γ) (extensions : List String) (directory : Path) :
    Except DiscoveryError (List Path) :=
  match files.locate directory with
  | none => .ok []
  | some l =>
    if files.isDirectory l then
      .ok ((((files.children l).map directory.join).filter (·.hasExtension extensions)).mergeSort
        Path.le)
    else .error ⟨directory⟩

/-- Loads what is found in a directory and admitted by the options. -/
def Loader.loadDirectory {β : Type} (l : Loader β) (gateOpen : Bool) (s : Site β)
    (options : LoadOptions) (directory : Path) :
    Except DiscoveryError (List (ModuleRecord β) × Loader β × Site β) :=
  (discoverModules s.files l.source.extensions directory).map fun paths =>
    l.loadPaths gateOpen s options paths

end ModularHost

import ModularHost.Connector.BringUp
import ModularHost.Module.Table
/-!
# The linked asset module

The one module that is part of the program: it registers the service that keeps assets in memory and
the one that keeps none. The types it needs are those that the host shares with every module.
-/

namespace ModularHost

/-- The type of assets, and that of their metadata. -/
def assetType : TypeRef := ⟨1, "grid_services::asset::AssetBase"⟩
def assetMetadataType : TypeRef := ⟨2, "grid_services::asset::AssetMetadata"⟩

/-- The types and contracts that the host shares with every module, under the names it publishes
them by. -/
def frameworkTypes : List NamedType :=
  [⟨"AssetBase", assetType⟩, ⟨"AssetMetadata", assetMetadataType⟩, .ofContract assetServiceContract]

/-- The host's types when nothing else has been published. -/
def frameworkScope : HostScope :=
  ⟨frameworkTypes.zipIdx.map fun (t, n) => ⟨t.name, t.type, .host, n⟩⟩

def memoryServiceName : String := "MemoryAssetService"
def nullServiceName : String := "NullAssetService"

/-- Registers both services. -/
def registerAssetServices : List (RegisterStep Implementation) :=
  [.bind assetServiceContract memoryServiceName .singleton (.make (.assets .memory)),
   .bind assetServiceContract nullServiceName .singleton (.make (.assets .null))]

def assetModule : Declaration Implementation :=
  { abi := hostAbi
    name := "module_asset_memory"
    version := "0.1.0"
    requirements := frameworkTypes.map fun t => ⟨false, .ok t⟩
    exports := []
    registration := registerAssetServices }

/-- The modules that are part of the program. -/
def linkedModules : ModuleTable Implementation := ⟨[assetModule]⟩

end ModularHost

import ModularHost.Connector.Dispatcher
import ModularHost.Container.Resolve
/-!
# Bringing a connector up

A connector is the front of a service: its section names an implementation, which is resolved from
the container by that very name and attached to the connector's route. The section is judged before
anything is resolved, and nothing is put in the place of an implementation that is not there.
-/

namespace ModularHost

/-- What implementations are made of: an asset service, or something that has only a label. -/
inductive Implementation where
  | assets (service : AssetService)
  | labelled (label : String)

/-- What can serve a route: an instance from the container, or a function of the program's own. -/
inductive Handler where
  | served (found : Instance Implementation)
  | custom (respond : (method : String) → (data : Json) → Except ServiceError Json)

/-- Handlers at work. What has only a label has no methods. -/
def Handler.handle (supply : IdSupply) : Handling Handler Vault
  | .served ⟨serial, .assets service⟩, v, method, data => service.handle supply serial v method data
  | .served ⟨_, .labelled _⟩, v, method, _ => (.error (.unknownMethod method), v)
  | .custom respond, v, method, data => (respond method data, v)

/-- A kind of connector: the contract it fronts, and its route. -/
structure ConnectorKind where
  contract : Contract
  route : String

/-- The type under which asset services are registered. -/
def assetServiceType : TypeRef := ⟨0, "dyn grid_services::asset::AssetService"⟩

def assetServiceContract : Contract := ⟨assetServiceType, "AssetService"⟩

def assetConnector : ConnectorKind := ⟨assetServiceContract, "assets"⟩

/-- Brings a connector up from a section. -/
def ConnectorKind.bringUp (kind : ConnectorKind) (sectionName : String)
    (sections : ConnectorSections) (c : Container Implementation) (d : Dispatcher Handler) :
    Except ConnectorError (Instance Implementation × Dispatcher Handler)
      × Container Implementation :=
  match (do
    let s ← sections.find sectionName
    let name ← s.implementationName sectionName
    let auth ← s.authMode sectionName
    return (name, auth) : Except ConnectorError (String × AuthMode)) with
  | .error e => (.error e, c)
  | .ok (name, auth) =>
    match c.resolve kind.contract name with
    | (.error e, c) => (.error (.resolution e), c)
    | (.ok i, c) => ((d.attach kind.route (.served i) auth).map fun d => (i, d), c)

end ModularHost

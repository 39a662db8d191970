import ModularHost.Contract
/-!
# Shared types

The host publishes types under names, and every module that needs one by that name is given the
host's descriptor. A name belongs to the type that was provided first; nothing replaces it.
-/

namespace ModularHost

/-- A load context's identifier. -/
structure ContextId where
  number : Nat
deriving DecidableEq, Repr

/-- Where a descriptor comes from. -/
inductive TypeOrigin where
  | host
  | context (id : ContextId)
deriving DecidableEq, Repr

/-- A type as some code calls it. -/
structure NamedType where
  name : String
  type : TypeRef
deriving DecidableEq, Repr

/-- The type of a contract, under the contract's name. -/
def NamedType.ofContract (contract : Contract) : NamedType := ⟨contract.name, contract.type⟩

/-- A published descriptor. `serial` counts the descriptors of its origin, so two descriptors are
the same object exactly when their origins and serial numbers are equal. -/
structure SharedType where
  name : String
  type : TypeRef
  origin : TypeOrigin
  serial : Nat
deriving DecidableEq, Repr

/-- Whether the descriptor and a reference mean the same type. -/
def SharedType.describes (s : SharedType) (type : TypeRef) : Bool := s.type.same type

/-- The types the host publishes, in the order they were provided. -/
structure HostScope where
  types : List SharedType
deriving DecidableEq, Repr, Inhabited

/-- A name is taken by another type. -/
structure ScopeConflict where
  name : String
  existing : TypeRef
  requested : TypeRef
deriving DecidableEq, Repr

def ScopeConflict.message (e : ScopeConflict) : String :=
  s!"Shared type '{e.name}' is already provided as {e.existing.name}, cannot provide it as "
    ++ e.requested.name

namespace HostScope

def empty : HostScope := ⟨[]⟩

def lookup (h : HostScope) (name : String) : Option SharedType :=
  h.types.find? (·.name == name)

def contains (h : HostScope) (name : String) : Bool :=
  h.types.any (·.name == name)

/-- The names in order. -/
def names (h : HostScope) : List String :=
  (h.types.map (·.name)).mergeSort fun a b => !decide (b < a)

/-- Publishes a type. A type that has the name already is answered as it is, another is refused. -/
def provide (h : HostScope) (name : String) (type : TypeRef) :
    Except ScopeConflict (SharedType × HostScope) :=
  match h.lookup name with
  | some shared =>
    if shared.describes type then .ok (shared, h) else .error ⟨name, shared.type, type⟩
  | none =>
    let shared : SharedType := ⟨name, type, .host, h.types.length⟩
    .ok (shared, ⟨h.types ++ [shared]⟩)

/-- Publishes the type of a contract under the contract's name. -/
def provideContract (h : HostScope) (contract : Contract) :
    Except ScopeConflict (SharedType × HostScope) :=
  h.provide contract.name contract.type

end HostScope
end ModularHost

import ModularHost.Module.Table
import ModularHost.Module.Library
/-!
# Load contexts

A context owns the modules loaded into it and the types they export. A name is looked up with the
host first and among the exports second, so no module ever brings its own copy of a type that the
host provides. A module is admitted when everything it requires resolves to the very type it was
built against; a refusal changes nothing.

Unloading lets go of all modules at once, and the context takes no module after that.
-/

namespace ModularHost

/-- What keeps a loaded module from being reclaimed, told apart by context and number. -/
structure Lease where
  context : ContextId
  number : Nat
deriving DecidableEq, Repr

structure LoadedModule (β : Type) where
  name : String
  version : String
  path : Path
  context : ContextId
  /-- What the requirements resolved to, in their order. -/
  dependencies : List SharedType
  /-- What the module added to its context. -/
  exports : List SharedType
  registration : List (RegisterStep β)
  lease : Lease

def LoadedModule.dependency? {β : Type} (m : LoadedModule β) (name : String) : Option SharedType :=
  m.dependencies.find? (·.name == name)

/-- Where a context finds modules. -/
inductive ModuleSource (β : Type) where
  | linked (table : ModuleTable β)
  | libraries

/-- The file extensions a source knows. -/
def ModuleSource.extensions {β : Type} : ModuleSource β → List String
  | .linked _ => [ModuleTable.linkedExtension, "so", "dll", "dylib"]
  | .libraries => ["so", "dll", "dylib"]

/-- The declaration a path stands for. -/
def ModuleSource.find {β : Type} (source : ModuleSource β) (files : FileTree (Library β))
    (linker : Linker β) (path : Path) : Except LoadCause (Declaration β) × Linker β :=
  match source with
  | .linked table =>
    match table.findForPath path with
    | some d => (.ok d, linker)
    | none =>
      if files.isFile path then
        (.error (.malformed (.notLinked (String.ofList (path.fileName?.getD [])))), linker)
      else (.error .missing, linker)
  | .libraries =>
    if !files.isFile path then (.error .missing, linker)
    else match linker.openLibrary files path with
      | none => (.error (.malformed .notALibrary), linker)
      | some (library, linker) => (library.declare, linker)

structure LoadContext (β : Type) where
  id : ContextId
  source : ModuleSource β
  modules : List (LoadedModule β)
  exports : List SharedType
  unloaded : Bool

/-- An admission under way. -/
structure Draft (β : Type) where
  context : LoadContext β
  path : Path
  declaration : Declaration β
  dependencies : List SharedType
  exports : List SharedType

/-- How an admission stands. -/
inductive Admission (β : Type) where
  | admitted (context : LoadContext β) (module : LoadedModule β)
  | refused (cause : LoadCause)
  /-- Code of the module panicked. What it had exported before stays in the context. -/
  | crashed (context : LoadContext β)
  /-- The gate is shut before the requirements and exports that are left. -/
  | waiting (draft : Draft β) (requirements exports : List Describer)

namespace LoadContext

variable {β : Type}

def new (id : ContextId) (source : ModuleSource β) : LoadContext β := ⟨id, source, [], [], false⟩

/-- The descriptor for a name: the host's, or else the one exported here. -/
def resolveType (c : LoadContext β) (host : HostScope) (name : String) : Option SharedType :=
  (host.lookup name).or (c.exports.find? (·.name == name))

def moduleNames (c : LoadContext β) : List String := c.modules.map (·.name)

def owns (c : LoadContext β) (lease : Lease) : Bool := c.modules.any (·.lease == lease)

end LoadContext

namespace Draft

variable {β : Type}

/-- Publishes an export, unless the host or the context has a type of that name. -/
def offer (d : Draft β) (host : HostScope) (offered : NamedType) : Draft β :=
  if host.contains offered.name || d.context.exports.any (·.name == offered.name) then d
  else
    let shared : SharedType :=
      ⟨offered.name, offered.type, .context d.context.id, d.context.exports.length⟩
    { d with
      context := { d.context with exports := d.context.exports ++ [shared] }
      exports := d.exports ++ [shared] }

/-- The module joins its context. -/
def finish (d : Draft β) : Admission β :=
  let module : LoadedModule β :=
    { name := d.declaration.name
      version := d.declaration.version
      path := d.path
      context := d.context.id
      dependencies := d.dependencies
      exports := d.exports
      registration := d.declaration.registration
      lease := ⟨d.context.id, d.context.modules.length⟩ }
  .admitted { d.context with modules := d.context.modules ++ [module] } module

/-- Goes through the exports that are left. -/
def offerAll (gateOpen : Bool) (host : HostScope) : List Describer → Draft β → Admission β
  | [], d => d.finish
  | describer :: rest, d =>
    if describer.waits && !gateOpen then .waiting d [] (describer :: rest)
    else match describer.answer with
      | .error _ => .crashed d.context
      | .ok offered => offerAll gateOpen host rest (d.offer host offered)

/-- Goes through the requirements that are left, then through the exports. -/
def requireAll (gateOpen : Bool) (host : HostScope) (exports : List Describer) :
    List Describer → Draft β → Admission β
  | [], d => d.offerAll gateOpen host exports
  | describer :: rest, d =>
    if describer.waits && !gateOpen then .waiting d (describer :: rest) exports
    else match describer.answer with
      | .error _ => .crashed d.context
      | .ok wanted =>
        match d.context.resolveType host wanted.name with
        | none => .refused (.unsatisfied wanted.name)
        | some shared =>
          if shared.describes wanted.type then
            requireAll gateOpen host exports rest
              { d with dependencies := d.dependencies ++ [shared] }
          else .refused (.typeMismatch wanted.name shared.type wanted.type)

end Draft

namespace LoadContext

variable {β : Type}

/-- Takes in the module of a declaration. -/
def accept (c : LoadContext β) (gateOpen : Bool) (host : HostScope) (path : Path)
    (d : Declaration β) : Admission β :=
  if c.unloaded then .refused (.contextUnloaded c.id)
  else if d.abi ≠ hostAbi then .refused (.abiMismatch d.abi)
  else if Text.isBlank d.name then .refused (.malformed .blankName)
  else if c.modules.any (·.name == d.name) then .refused (.alreadyLoaded d.name)
  else Draft.requireAll gateOpen host d.exports d.requirements ⟨c, path, d, [], []⟩

/-- Loads the module a path stands for. -/
def load (c : LoadContext β) (gateOpen : Bool) (host : HostScope) (files : FileTree (Library β))
    (linker : Linker β) (path : Path) : Admission β × Linker β :=
  if c.unloaded then (.refused (.contextUnloaded c.id), linker)
  else match c.source.find files linker path with
    | (.error cause, linker) => (.refused cause, linker)
    | (.ok d, linker) => (c.accept gateOpen host path d, linker)

end LoadContext

/-- What an unload did. -/
structure UnloadReport where
  context : ContextId
  /-- The modules the context let go of. -/
  released : Nat
  /-- Those of them that are held elsewhere. -/
  stillReferenced : Nat
deriving DecidableEq, Repr

/-- Lets go of all modules; `held` says which leases are held outside the context. -/
def LoadContext.unload {β : Type} (c : LoadContext β) (held : Lease → Bool) :
    UnloadReport × LoadContext β :=
  (⟨c.id, c.modules.length, c.modules.countP fun m => held m.lease⟩,
    { c with modules := [], exports := [], unloaded := true })

end ModularHost

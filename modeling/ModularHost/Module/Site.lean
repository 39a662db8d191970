import ModularHost.Module.Context
/-!
# Sites

All that modules are loaded into: the container, the host's types, the load contexts, the files and
the libraries opened so far. Contexts are created with a new identifier each and never forgotten.
-/

namespace ModularHost

structure Site (β : Type) where
  container : Container β
  host : HostScope
  contexts : List (LoadContext β)
  files : FileTree (Library β)
  linker : Linker β
  /-- The identifiers of the contexts are their positions. -/
  numbered : contexts.map (·.id) = (List.range contexts.length).map .mk

namespace Site

variable {β : Type}

instance : Inhabited (Site β) := ⟨⟨.empty, .empty, [], .empty, .empty, rfl⟩⟩

def context? (s : Site β) (id : ContextId) : Option (LoadContext β) :=
  s.contexts.find? (·.id == id)

/-- Puts a context in place of the one with its identifier. -/
def setContext (s : Site β) (c : LoadContext β) : Site β :=
  { s with
    contexts := s.contexts.map fun old => if old.id = c.id then c else old
    numbered := by
      have kept : ∀ old : LoadContext β, (if old.id = c.id then c else old).id = old.id := by
        intro old
        split
        · exact (Eq.symm ‹_›)
        · rfl
      simpa [Function.comp_def, kept] using s.numbered }

/-- A new context, which owns nothing. -/
def createContext (s : Site β) (source : ModuleSource β) : LoadContext β × Site β :=
  let c := LoadContext.new ⟨s.contexts.length⟩ source
  (c, { s with
    contexts := s.contexts ++ [c]
    numbered := by simp [s.numbered, List.range_succ, c, LoadContext.new] })

/-- What an admission leaves in the site. -/
def settle (s : Site β) : Admission β → Site β
  | .admitted c _ | .crashed c => s.setContext c
  | .refused _ | .waiting .. => s

/-- Loads the module a path stands for into a context. -/
def load (s : Site β) (gateOpen : Bool) (c : LoadContext β) (path : Path) :
    Admission β × Site β :=
  let (admission, linker) := c.load gateOpen s.host s.files s.linker path
  (admission, { s with linker }.settle admission)

/-- Unloads a context; none when there is no such context. -/
def unload (s : Site β) (held : Lease → Bool) (id : ContextId) : Option UnloadReport × Site β :=
  match s.context? id with
  | none => (none, s)
  | some c =>
    let (report, c) := c.unload held
    (some report, s.setContext c)

/-- Runs the registration of a module on the container. -/
def register (s : Site β) (gateOpen : Bool) (steps : List (RegisterStep β)) :
    Registration β × Site β :=
  let (registration, container) := runRegistration gateOpen steps s.container
  (registration, { s with container })

end Site
end ModularHost

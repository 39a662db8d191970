import ModularHost.Module.Loader
/-!
# Who holds a module

A loaded module is reclaimed when nothing holds it any more: no handle, no record, and no context
that owns it. Handles and records are kept in numbered places; dropping one empties its place.
-/

namespace ModularHost

structure Custody (β : Type) where
  handles : List (Option (LoadedModule β))
  records : List (Option (ModuleRecord β))
  /-- Contexts that are held in their own right. -/
  contexts : List ContextId

namespace Custody

variable {β : Type}

def empty : Custody β := ⟨[], [], []⟩

instance : Inhabited (Custody β) := ⟨empty⟩

/-! ## Handles -/

def handle? (c : Custody β) (place : Nat) : Option (LoadedModule β) :=
  (c.handles[place]?).join

/-- Takes a handle into the next place. -/
def addHandle (c : Custody β) (m : LoadedModule β) : Nat × Custody β :=
  (c.handles.length, { c with handles := c.handles ++ [some m] })

/-- Drops the handle in a place, and tells whether there was one. -/
def dropHandle (c : Custody β) (place : Nat) : Bool × Custody β :=
  ((c.handle? place).isSome, { c with handles := c.handles.set place none })

/-! ## Records -/

def record? (c : Custody β) (place : Nat) : Option (ModuleRecord β) :=
  (c.records[place]?).join

def addRecord (c : Custody β) (r : ModuleRecord β) : Nat × Custody β :=
  (c.records.length, { c with records := c.records ++ [some r] })

def dropRecord (c : Custody β) (place : Nat) : Bool × Custody β :=
  ((c.record? place).isSome, { c with records := c.records.set place none })

/-! ## Holding -/

/-- Whether a lease is held by a handle or a record. -/
def holds (c : Custody β) (lease : Lease) : Bool :=
  c.handles.any (fun h => h.any (·.lease == lease))
    || c.records.any fun r => r.any (·.holds lease)

/-- Whether a context is held, in its own right or by a record. -/
def holdsContext (c : Custody β) (id : ContextId) : Bool :=
  c.contexts.contains id || c.records.any fun r => r.any (·.context == some id)

/-- Whether the module of a lease has not been reclaimed. -/
def alive (c : Custody β) (s : Site β) (lease : Lease) : Bool :=
  c.holds lease || s.contexts.any fun context => c.holdsContext context.id && context.owns lease

end Custody
end ModularHost

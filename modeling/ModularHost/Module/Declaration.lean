import ModularHost.Container.Basic
import ModularHost.HostScope
/-!
# Module declarations

What a module tells the host about itself: the interface version it was built for, its name, the
shared types it needs and offers, and how it registers its implementations. The parts that are code
of the module's own may panic, and they may wait at a gate that the host has not opened yet.
-/

namespace ModularHost

/-- What a panic carries: a text, or something that is none. -/
structure Panic where
  payload : Option String
deriving DecidableEq, Repr

def Panic.message (p : Panic) : String :=
  p.payload.getD "unknown panic payload"

/-- Code of a module that describes one shared type as the module knows it. -/
structure Describer where
  /-- Whether the code waits at the gate before it answers. -/
  waits : Bool
  answer : Except Panic NamedType

/-- One step of a module's registration. -/
inductive RegisterStep (β : Type) where
  | bind (contract : Contract) (name : String) (lifetime : Lifetime) (factory : Factory β)
  | bindInstance (contract : Contract) (name : String) (body : β)
  /-- Binds an instance that exists already. -/
  | bindExisting (contract : Contract) (name : String) (i : Instance β)
  /-- Waits at the gate. -/
  | wait
  /-- Gives up with an error of its own. -/
  | refuse (error : ContainerError)
  | panic (panic : Panic)

structure Declaration (β : Type) where
  abi : Nat
  name : String
  version : String
  requirements : List Describer
  exports : List Describer
  registration : List (RegisterStep β)

/-- The interface version the host was built for. -/
def hostAbi : Nat := 2

/-- How a registration stands. -/
inductive Registration (β : Type) where
  | completed
  | refused (error : ContainerError)
  | panicked (panic : Panic)
  /-- The gate is shut before the steps that are left. -/
  | waiting (steps : List (RegisterStep β))

/-- Runs the steps of a registration up to the first that goes wrong, or waits. -/
def runRegistration {β : Type} (gateOpen : Bool) :
    List (RegisterStep β) → Container β → Registration β × Container β
  | [], c => (.completed, c)
  | .bind contract name lifetime factory :: steps, c =>
    match c.register contract name lifetime factory with
    | .ok c => runRegistration gateOpen steps c
    | .error e => (.refused e, c)
  | .bindInstance contract name body :: steps, c =>
    match c.registerNew contract name body with
    | .ok c => runRegistration gateOpen steps c
    | .error e => (.refused e, c)
  | .bindExisting contract name i :: steps, c =>
    match c.registerInstance contract name i with
    | .ok c => runRegistration gateOpen steps c
    | .error e => (.refused e, c)
  | .wait :: steps, c =>
    if gateOpen then runRegistration gateOpen steps c else (.waiting (.wait :: steps), c)
  | .refuse error :: _, c => (.refused error, c)
  | .panic panic :: _, c => (.panicked panic, c)

end ModularHost

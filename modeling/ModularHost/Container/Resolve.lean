import ModularHost.Container.Basic
/-!
# Resolving

A binding hands out the instance it holds, or runs its factory. What a singleton's factory makes is
kept; a run that fails is reported and leaves nothing behind, so the next resolution runs the
factory again. Everything a factory did to the container before it failed stays done.

A singleton whose factory is running hands out nothing: who asks for it on the way waits for
itself. A chain of other factories that comes to no binding twice cannot be longer than the bindings
that exist or come into being on the way, and `Container.depth` bounds these, so a chain that gets
past the bound goes round in a circle. Both are answered with `endless`, which no failure is, and
leave the singletons on the way with their factories running.

A circle of transients is given up at the bound, although it need not go round for ever: a factory
that fails from some run on would end it with that failure, after as many rounds as it takes.
Nothing in a container bounds these. So `endless` says that a chain has come back to where it was,
and not that it would never have come to an end. A chain that does not come back is never given up.
-/

namespace ModularHost

/-- Why a factory made nothing. -/
inductive BuildError where
  | failed (reason : String)
  | endless
deriving DecidableEq, Repr

/-- What a factory can ask of the store it is registered with. -/
structure Access (σ β : Type) where
  resolve : σ → Contract → String → Except ContainerError (Instance β) × σ
  register : σ → Contract → String → Lifetime → Factory β → Except ContainerError σ
  registerNew : σ → Contract → String → β → Except ContainerError σ

/-- A factory passes on the error of what it resolves or registers as its own reason. -/
def BuildError.ofContainerError : ContainerError → BuildError
  | .endless => .endless
  | e => .failed e.message

/-- Runs a factory; `found` is what it has resolved so far, the latest first. -/
def Factory.run {σ β : Type} (access : Access σ β) (run : Nat) :
    Factory β → List (Instance β) → σ → Except BuildError (Product β) × σ
  | .make body, _, c => (.ok (.fresh body), c)
  | .build produce, found, c => ((produce run found.reverse).mapError .failed, c)
  | .resolve contract name next, found, c =>
    match access.resolve c contract name with
    | (.ok i, c) => next.run access run (i :: found) c
    | (.error e, c) => (.error (.ofContainerError e), c)
  | .register contract name lifetime factory next, found, c =>
    match access.register c contract name lifetime factory with
    | .ok c => next.run access run found c
    | .error e => (.error (.ofContainerError e), c)
  | .registerInstance contract name body next, found, c =>
    match access.registerNew c contract name body with
    | .ok c => next.run access run found c
    | .error e => (.error (.ofContainerError e), c)

namespace Container

variable {β : Type}

/-- How a container finds an instance. -/
abbrev Resolver (β : Type) :=
  Container β → Contract → String → Except ContainerError (Instance β) × Container β

/-- What a container grants the factories registered with it. -/
def access (resolve : Resolver β) : Access (Container β) β := ⟨resolve, register, registerNew⟩

/-- Runs the factory of a binding, and keeps what it makes if the binding is a singleton. -/
def construct (resolve : Resolver β) (c : Container β) (b : Binding β) :
    Except ContainerError (Erased β) × Container β :=
  match b.factory.run (access resolve) b.runs [] (c.start b.key) with
  | (.error .endless, c) => (.error .endless, c)
  | (.error (.failed reason), c) =>
    (.error (.constructionFailed b.contract.name b.name reason), c.release b.key)
  | (.ok product, c) =>
    let (i, c) := c.produce product
    match b.lifetime with
    | .singleton => (.ok (b.erase i), c.keep b.key i)
    | .transient => (.ok (b.erase i), c)

/-- What a binding hands out to those who ask under a contract. -/
def materialize (resolve : Resolver β) (c : Container β) (contract : Contract) (b : Binding β) :
    Except ContainerError (Instance β) × Container β :=
  match b.lifetime, b.cell with
  | .singleton, some made => (b.handOut contract made, c)
  | _, _ =>
    if b.busy then (.error .endless, c)
    else
      let (made, c) := c.construct resolve b
      (made.bind (b.handOut contract), c)

/-- Resolves with chains of at most `depth` factories. -/
def resolveWithin : (depth : Nat) → Resolver β
  | 0, c, _, _ => (.error .endless, c)
  | depth + 1, c, contract, name =>
    match c.find? contract name with
    | none => (.error (.unresolvedName contract.name name), c)
    | some b => c.materialize (resolveWithin depth) contract b

/-- A bound on the bindings that exist or can come into being by running their factories. -/
def depth (c : Container β) : Nat :=
  Factory.totalWeight (c.entries.map (·.binding.factory))

/-- The instance of a contract and a name. -/
def resolve (c : Container β) (contract : Contract) (name : String) :
    Except ContainerError (Instance β) × Container β :=
  resolveWithin (c.depth + 1) c contract name

/-- What the bindings of some keys hand out under a contract, up to the first that fails. -/
def materializeAll (c : Container β) (contract : Contract) :
    List BindingKey → Except ContainerError (List (String × Instance β)) × Container β
  | [] => (.ok [], c)
  | key :: rest =>
    match c.get? key with
    | none => c.materializeAll contract rest
    | some b =>
      match c.materialize (resolveWithin c.depth) contract b with
      | (.error e, c) => (.error e, c)
      | (.ok i, c) =>
        match c.materializeAll contract rest with
        | (.error e, c) => (.error e, c)
        | (.ok found, c) => (.ok ((b.name, i) :: found), c)

/-- Every implementation of a contract, in the order of registration. The bindings are those there
were at the beginning. -/
def resolveAll (c : Container β) (contract : Contract) :
    Except ContainerError (List (String × Instance β)) × Container β :=
  c.materializeAll contract ((c.entriesOf contract).map (·.key))

end Container
end ModularHost

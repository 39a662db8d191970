import ModularHost.Contract
import ModularHost.Text.Blank
/-!
# Containers

A container keeps bindings under keys: the type of the contract and the exact name. The keys stand
in no particular order, and each registration takes the next number of a counter; whatever lists
bindings puts them in the order of these numbers. Nothing is ever removed or replaced.

Instances are kept without their type. A binding knows the type its factory makes, and a look-up
under another contract would be refused.

Factories are finite programs without branches: a factory may first resolve other bindings of the
container, or register more of them, and in the end it builds something, hands on what exists, or
fails. Which steps it takes is laid down beforehand. Neither the number of the run nor what an
earlier step came to chooses the next, and the first step that is refused ends the run. Only what is
built in the end may depend on all of that, in any way whatever.
-/

namespace ModularHost

/-- How often a binding's factory is asked. -/
inductive Lifetime where
  /-- Once; what it made is handed out from then on. -/
  | singleton
  /-- Each time. -/
  | transient
deriving DecidableEq, Repr

/-- Something that was built. Two instances are the same object exactly when their serial numbers
are equal. -/
structure Instance (β : Type) where
  serial : Nat
  body : β
deriving DecidableEq, Repr

/-- What a factory comes to: something new, or an instance that exists already. -/
inductive Product (β : Type) where
  | fresh (body : β)
  | existing (i : Instance β)

/-- How the instances of a binding come about: some steps on the container, one after the other, and
then something made from them. A refusal on the way is the factory's own failure. -/
inductive Factory (β : Type) where
  /-- Makes the same thing on every run. -/
  | make (body : β)
  /-- Builds something, or fails with a reason, from the number of the run and what was resolved
  before, in that order. -/
  | build (produce : (run : Nat) → List (Instance β) → Except String (Product β))
  /-- Resolves a binding of the container, then goes on. -/
  | resolve (contract : Contract) (name : String) (next : Factory β)
  /-- Registers a binding, then goes on. -/
  | register (contract : Contract) (name : String) (lifetime : Lifetime) (factory next : Factory β)
  /-- Registers something made on the spot, then goes on. -/
  | registerInstance (contract : Contract) (name : String) (body : β) (next : Factory β)

/-- The number of steps in a factory, those of the factories it registers included. -/
def Factory.weight {β : Type} : Factory β → Nat
  | .make _ | .build _ => 1
  | .resolve _ _ next => 1 + next.weight
  | .register _ _ _ factory next => 1 + factory.weight + next.weight
  | .registerInstance _ _ _ next => 2 + next.weight

/-- The number of steps in some factories together. -/
def Factory.totalWeight {β : Type} (factories : List (Factory β)) : Nat :=
  factories.foldr (fun f n => f.weight + n) 0

/-- Why a container refuses. -/
inductive ContainerError where
  | duplicateName (contract name : String)
  | unresolvedName (contract name : String)
  | invalidName (contract : String)
  | constructionFailed (contract name reason : String)
  /-- What the binding holds is of another contract's type. -/
  | contractMismatch (contract name : String)
  /-- The construction waits for itself, or goes round in a circle. -/
  | endless
deriving DecidableEq, Repr

def ContainerError.message : ContainerError → String
  | .duplicateName contract name =>
    s!"Duplicate binding: {contract} already has an implementation named '{name}'"
  | .unresolvedName contract name =>
    s!"Unresolved binding: no implementation of {contract} named '{name}'"
  | .invalidName contract => s!"Invalid binding name for {contract}: names must not be empty"
  | .constructionFailed contract name reason =>
    s!"Failed to construct {contract} implementation '{name}': {reason}"
  | .contractMismatch contract name => s!"Binding '{name}' does not hold a {contract} instance"
  | .endless => "Construction waits for itself"

/-! ## Bindings -/

/-- What bindings are told apart by: the type of the contract, whatever it is called, and the exact
name. -/
structure BindingKey where
  identity : Nat
  name : String
deriving DecidableEq, Repr

def Contract.key (contract : Contract) (name : String) : BindingKey :=
  ⟨contract.type.identity, name⟩

/-- An instance whose type is only looked at when it is handed out. -/
structure Erased (β : Type) where
  type : TypeRef
  content : Instance β

/-- The instance under a contract, if it is of the contract's type. -/
def Erased.downcast? {β : Type} (made : Erased β) (contract : Contract) : Option (Instance β) :=
  if made.type.same contract.type then some made.content else none

/-- One registered implementation. What it holds is of the type of its contract. -/
structure Binding (β : Type) where
  contract : Contract
  name : String
  lifetime : Lifetime
  factory : Factory β
  /-- How often the factory has been run. -/
  runs : Nat
  /-- Whether a singleton's factory is running. Whoever asks for the instance then waits. -/
  busy : Bool
  /-- What a singleton's factory has made. -/
  cell : Option (Erased β)
  cell_type : ∀ made, cell = some made → made.type = contract.type

namespace Binding

variable {β : Type}

/-- A binding whose factory has not been run. -/
def new (contract : Contract) (name : String) (lifetime : Lifetime) (factory : Factory β) :
    Binding β :=
  { contract, name, lifetime, factory, runs := 0, busy := false, cell := none,
    cell_type := by simp }

def key (b : Binding β) : BindingKey := b.contract.key b.name

/-- An instance as the binding keeps it. -/
def erase (b : Binding β) (i : Instance β) : Erased β := ⟨b.contract.type, i⟩

/-- The binding while its factory runs once more. -/
def start (b : Binding β) : Binding β :=
  { b with runs := b.runs + 1, busy := decide (b.lifetime = .singleton) }

/-- The binding after a run of its factory that made nothing. -/
def release (b : Binding β) : Binding β := { b with busy := false }

/-- The binding with an instance in its cell. -/
def hold (b : Binding β) (i : Instance β) : Binding β :=
  { b with busy := false, cell := some (b.erase i), cell_type := by rintro _ ⟨⟩; rfl }

/-- A singleton that exists already, and whose factory is never run. -/
def ofInstance (contract : Contract) (name : String) (i : Instance β) : Binding β :=
  (new contract name .singleton (.build fun _ _ => .ok (.existing i))).hold i

/-- Hands out something the binding made to those who ask under a contract. -/
def handOut (b : Binding β) (contract : Contract) (made : Erased β) :
    Except ContainerError (Instance β) :=
  match made.downcast? contract with
  | some i => .ok i
  | none => .error (.contractMismatch contract.name b.name)

/-- Whether the binding holds what it will hand out. -/
def materialized (b : Binding β) : Bool :=
  b.cell.isSome

theorem key_hold (b : Binding β) (i : Instance β) : (b.hold i).key = b.key := rfl

theorem key_start (b : Binding β) : b.start.key = b.key := rfl

theorem key_release (b : Binding β) : b.release.key = b.key := rfl

end Binding

/-- What a list of bindings tells about one of them. -/
structure BindingInfo where
  contract : String
  name : String
  lifetime : Lifetime
  materialized : Bool
deriving DecidableEq, Repr

def Binding.info {β : Type} (b : Binding β) : BindingInfo :=
  ⟨b.contract.name, b.name, b.lifetime, b.materialized⟩

/-! ## Entries -/

/-- A binding under its key, with the number of its registration. -/
structure Entry (β : Type) where
  key : BindingKey
  sequence : Nat
  binding : Binding β

namespace Entry

variable {β : Type}

/-- Whether an entry comes before another in a listing. -/
def le (a b : Entry β) : Bool := decide (a.sequence ≤ b.sequence)

/-- Entries in the order of their registration. -/
def sort (entries : List (Entry β)) : List (Entry β) := entries.mergeSort le

/-- The entry with its binding changed, if it is the one of a key. -/
def change (key : BindingKey) (f : Binding β → Binding β) (e : Entry β) : Entry β :=
  if e.key = key then { e with binding := f e.binding } else e

@[simp] theorem key_change (key : BindingKey) (f : Binding β → Binding β) (e : Entry β) :
    (e.change key f).key = e.key := by
  unfold change; split <;> rfl

@[simp] theorem sequence_change (key : BindingKey) (f : Binding β → Binding β) (e : Entry β) :
    (e.change key f).sequence = e.sequence := by
  unfold change; split <;> rfl

theorem binding_key_change {key : BindingKey} {f : Binding β → Binding β} {e : Entry β}
    (hf : ∀ b, (f b).key = b.key) : (e.change key f).binding.key = e.binding.key := by
  unfold change; split
  · exact hf e.binding
  · rfl

end Entry

/-- The entries in no particular order, the number of the next registration, and how many instances
have been made. No two entries share a key or a number, and each stands under its binding's key. -/
structure Container (β : Type) where
  entries : List (Entry β)
  sequence : Nat
  minted : Nat
  keys_nodup : (entries.map (·.key)).Nodup
  key_eq : ∀ e ∈ entries, e.key = e.binding.key
  sequences_nodup : (entries.map (·.sequence)).Nodup
  sequence_lt : ∀ e ∈ entries, e.sequence < sequence

namespace Container

variable {β : Type}

def empty : Container β :=
  { entries := [], sequence := 0, minted := 0, keys_nodup := List.nodup_nil, key_eq := by simp,
    sequences_nodup := List.nodup_nil, sequence_lt := by simp }

instance : Inhabited (Container β) := ⟨empty⟩

/-! ## Looking -/

/-- The binding of a key. -/
def get? (c : Container β) (key : BindingKey) : Option (Binding β) :=
  (c.entries.find? (·.key == key)).map (·.binding)

/-- The binding of a contract and a name. -/
def find? (c : Container β) (contract : Contract) (name : String) : Option (Binding β) :=
  c.get? (contract.key name)

def contains (c : Container β) (contract : Contract) (name : String) : Bool :=
  c.entries.any (·.key == contract.key name)

/-- The bindings in the order they were registered. -/
def bindings (c : Container β) : List (Binding β) :=
  (Entry.sort c.entries).map (·.binding)

/-- The entries of one contract, in the order they were registered. -/
def entriesOf (c : Container β) (contract : Contract) : List (Entry β) :=
  Entry.sort (c.entries.filter (·.key.identity == contract.type.identity))

/-- The names under which a contract is implemented. -/
def names (c : Container β) (contract : Contract) : List String :=
  (c.entriesOf contract).map (·.binding.name)

/-- What there is to tell about every binding. -/
def infos (c : Container β) : List BindingInfo :=
  c.bindings.map (·.info)

def size (c : Container β) : Nat := c.entries.length

/-! ## Registering -/

/-- A binding is entered under its key unless its name is blank or the key is taken. -/
def add (c : Container β) (b : Binding β) : Except ContainerError (Container β) :=
  if Text.isBlank b.name then .error (.invalidName b.contract.name)
  else if taken : c.contains b.contract b.name then
    .error (.duplicateName b.contract.name b.name)
  else .ok
    { c with
      entries := ⟨b.key, c.sequence, b⟩ :: c.entries
      sequence := c.sequence + 1
      keys_nodup := by
        have free : ∀ e ∈ c.entries, e.key ≠ b.key := by
          simpa [contains, Binding.key] using taken
        refine List.nodup_cons.2 ⟨fun h => ?_, c.keys_nodup⟩
        obtain ⟨e, he, hk⟩ := List.mem_map.1 h
        exact free e he hk
      key_eq := by
        intro e he
        rcases List.mem_cons.1 he with rfl | he
        · rfl
        · exact c.key_eq e he
      sequences_nodup := by
        refine List.nodup_cons.2 ⟨fun h => ?_, c.sequences_nodup⟩
        obtain ⟨e, he, hs⟩ := List.mem_map.1 h
        exact absurd (c.sequence_lt e he) (by simp [hs])
      sequence_lt := by
        intro e he
        rcases List.mem_cons.1 he with rfl | he
        · exact Nat.lt_succ_self _
        · exact Nat.lt_succ_of_lt (c.sequence_lt e he) }

def register (c : Container β) (contract : Contract) (name : String) (lifetime : Lifetime)
    (factory : Factory β) : Except ContainerError (Container β) :=
  c.add (.new contract name lifetime factory)

/-- Registers an instance that exists already. -/
def registerInstance (c : Container β) (contract : Contract) (name : String) (i : Instance β) :
    Except ContainerError (Container β) :=
  c.add (.ofInstance contract name i)

/-- Makes an instance, which no binding holds yet. -/
def mint (c : Container β) (body : β) : Instance β × Container β :=
  (⟨c.minted, body⟩, { c with minted := c.minted + 1 })

/-- The instance a factory came to. -/
def produce (c : Container β) : Product β → Instance β × Container β
  | .fresh body => c.mint body
  | .existing i => (i, c)

/-- Makes an instance and registers it. A refusal leaves the container as it was. -/
def registerNew (c : Container β) (contract : Contract) (name : String) (body : β) :
    Except ContainerError (Container β) :=
  let (i, c) := c.mint body
  c.registerInstance contract name i

/-! ## Changing one binding -/

/-- Changes the binding of a key, which keeps its key. -/
def update (c : Container β) (key : BindingKey) (f : Binding β → Binding β)
    (hf : ∀ b, (f b).key = b.key) : Container β :=
  { c with
    entries := c.entries.map (·.change key f)
    keys_nodup := by simpa [Function.comp_def] using c.keys_nodup
    key_eq := by
      intro e he
      obtain ⟨old, hold, rfl⟩ := List.mem_map.1 he
      rw [Entry.key_change, Entry.binding_key_change hf]
      exact c.key_eq old hold
    sequences_nodup := by simpa [Function.comp_def] using c.sequences_nodup
    sequence_lt := by simpa using c.sequence_lt }

/-- Starts one more run of a binding's factory. -/
def start (c : Container β) (key : BindingKey) : Container β :=
  c.update key (·.start) Binding.key_start

/-- Ends a run that made nothing. -/
def release (c : Container β) (key : BindingKey) : Container β :=
  c.update key (·.release) Binding.key_release

/-- Keeps what a singleton's factory made. -/
def keep (c : Container β) (key : BindingKey) (i : Instance β) : Container β :=
  c.update key (·.hold i) fun b => b.key_hold i

end Container
end ModularHost

/-!
# Types and contracts

Implementations are kept apart by the contract they implement, and a contract is told from others
by its type alone. Its display name is for messages: two contracts may share one.
-/

namespace ModularHost

/-- A type that crosses the boundary between host and modules. `identity` is what tells it from
other types; `name` is how a message calls it. -/
structure TypeRef where
  identity : Nat
  name : String
deriving DecidableEq, Repr

/-- Whether two references mean the same type. -/
def TypeRef.same (a b : TypeRef) : Bool := a.identity == b.identity

/-- What implementations are registered and resolved under. -/
structure Contract where
  type : TypeRef
  name : String
deriving DecidableEq, Repr

/-- Whether two contracts are the same one, whatever they are called. -/
def Contract.same (a b : Contract) : Bool := a.type.same b.type

theorem TypeRef.same_iff {a b : TypeRef} : a.same b = true ↔ a.identity = b.identity := by
  simp [TypeRef.same]

theorem Contract.same_iff {a b : Contract} :
    a.same b = true ↔ a.type.identity = b.type.identity := by
  simp [Contract.same, TypeRef.same]

end ModularHost

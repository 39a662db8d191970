import ModularHost.FileTree
import ModularHost.Module.Failure
/-!
# Module libraries

A library tells its interface version before anything else of it is used, since another version may
lay out the rest differently. A library that has been opened stays open: opening its path again
answers the same library, whatever stands at the path by then.
-/

namespace ModularHost

/-- An entry point of a library that answers a value: it may be absent, or answer nothing. -/
inductive Export (α : Type) where
  | absent
  | null
  | given (value : α)

/-- The entry points of a module library. -/
structure Library (β : Type) where
  abi : Option Nat
  declaration : Export (Declaration β)

/-- The declaration of a library built for the host's interface version. -/
def Library.declare {β : Type} (l : Library β) : Except LoadCause (Declaration β) :=
  match l.abi with
  | none => .error (.malformed .noAbiExport)
  | some abi =>
    if abi ≠ hostAbi then .error (.abiMismatch abi)
    else match l.declaration with
      | .absent => .error (.malformed .noDeclarationExport)
      | .null => .error (.malformed .nullDeclaration)
      | .given d => .ok d

/-- The libraries that are open, under the paths they were opened by. -/
structure Linker (β : Type) where
  opened : List (String × Library β)

namespace Linker

variable {β : Type}

def empty : Linker β := ⟨[]⟩

instance : Inhabited (Linker β) := ⟨empty⟩

/-- Opens the library at a path. A path without a slash is no place in the tree. -/
def openLibrary (l : Linker β) (files : FileTree (Library β)) (p : Path) :
    Option (Library β × Linker β) :=
  if !p.text.toList.contains '/' then none
  else match l.opened.lookup p.text with
    | some library => some (library, l)
    | none =>
      match files.find? p with
      | some (.library library) => some (library, ⟨(p.text, library) :: l.opened⟩)
      | _ => none

end Linker
end ModularHost

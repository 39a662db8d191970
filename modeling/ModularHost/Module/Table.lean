import ModularHost.Module.Declaration
import ModularHost.Path
/-!
# Linked modules

The modules that are part of the program, each under its own name. A file name stands for the
module named like its stem, or else for the one named like the stem without `lib` in front.
-/

namespace ModularHost

/-- The mark that a library's file name may begin with. -/
def libraryMark : String := "lib"

/-- What follows the library mark, if a name begins with it. -/
def withoutMark? (stem : String) : Option String :=
  if libraryMark.toList.isPrefixOf stem.toList then
    some (String.ofList (stem.toList.drop libraryMark.length))
  else none

/-- Linked modules, no two of one name. -/
structure ModuleTable (β : Type) where
  modules : List (Declaration β)

namespace ModuleTable

variable {β : Type}

def empty : ModuleTable β := ⟨[]⟩

instance : Inhabited (ModuleTable β) := ⟨empty⟩

def get? (t : ModuleTable β) (name : String) : Option (Declaration β) :=
  t.modules.find? (·.name == name)

/-- Adds a module, in place of one that has its name. -/
def insert (t : ModuleTable β) (d : Declaration β) : ModuleTable β :=
  ⟨t.modules.filter (·.name != d.name) ++ [d]⟩

def ofList (modules : List (Declaration β)) : ModuleTable β :=
  modules.foldl insert empty

/-- The module a file stands for. -/
def findForPath (t : ModuleTable β) (p : Path) : Option (Declaration β) :=
  p.stem?.bind fun stem =>
    (t.get? stem).or ((withoutMark? stem).bind t.get?)

/-- The names in order. -/
def names (t : ModuleTable β) : List String :=
  (t.modules.map (·.name)).mergeSort fun a b => !decide (b < a)

/-- The extension of files that stand for linked modules. -/
def linkedExtension : String := "module"

/-- One path in a directory for each module, in the order of the names. -/
def paths (t : ModuleTable β) (directory : Path) : List Path :=
  t.names.map fun name => directory.join (name ++ "." ++ linkedExtension)

def size (t : ModuleTable β) : Nat := t.modules.length

end ModuleTable
end ModularHost

import ModularHost.Module.Declaration
import ModularHost.Duration
import ModularHost.Path
/-!
# Why a module does not load
-/

namespace ModularHost

/-- What is wrong with a file that is no usable module. -/
inductive Flaw where
  | notLinked (fileName : String)
  | notALibrary
  | noAbiExport
  | noDeclarationExport
  | nullDeclaration
  | blankName
deriving DecidableEq, Repr

def Flaw.message : Flaw → String
  | .notLinked fileName => s!"no statically linked module matches {fileName}"
  | .notALibrary => "failed to open library"
  | .noAbiExport => "missing grid_module_abi_version export"
  | .noDeclarationExport => "missing grid_module_declaration export"
  | .nullDeclaration => "module returned a null declaration"
  | .blankName => "module declares an empty name"

inductive LoadCause where
  | missing
  | malformed (flaw : Flaw)
  | abiMismatch (found : Nat)
  | unsatisfied (name : String)
  | typeMismatch (name : String) (expected found : TypeRef)
  | alreadyLoaded (name : String)
  | contextUnloaded (context : ContextId)
  | registration (error : ContainerError)
  | panicked (panic : Panic)
  /-- The load crashed outside registration. -/
  | interrupted
  | timedOut (limit : Duration)
deriving DecidableEq, Repr

/-- The cause in words; `showContext` is how contexts are called. -/
def LoadCause.message (showContext : ContextId → String) : LoadCause → String
  | .missing => "module file not found"
  | .malformed flaw => s!"malformed module: {flaw.message}"
  | .abiMismatch found =>
    s!"incompatible module ABI: host expects {hostAbi}, module declares {found}"
  | .unsatisfied name => s!"unsatisfied dependency on shared type '{name}'"
  | .typeMismatch name expected found =>
    s!"shared type '{name}' differs from the host's: host resolves {expected.name}, "
      ++ s!"module was built against {found.name}"
  | .alreadyLoaded name => s!"module '{name}' is already loaded in this context"
  | .contextUnloaded id => s!"load context {showContext id} has been unloaded"
  | .registration e => s!"module registration failed: {e.message}"
  | .panicked p => s!"module panicked during registration: {p.message}"
  | .interrupted => "module loading task failed"
  | .timedOut limit => s!"module loading timed out after {limit.text}"

/-- What is said of a module that could not be loaded from a path. -/
def LoadCause.report (showContext : ContextId → String) (path : Path) (cause : LoadCause) :
    String :=
  s!"Failed to load module {path.text}: {cause.message showContext}"

end ModularHost

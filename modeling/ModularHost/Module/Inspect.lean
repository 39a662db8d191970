import ModularHost.Module.Loader
import ModularHost.Text.Quoted
/-!
# Inspecting modules

One-line views of declarations, modules and records for a reader who looks for a fault: the name of
each thing with its fields in braces, texts quoted. Contexts are called as `showContext` says.
-/

namespace ModularHost

open Text (quote)

/-- A list between brackets. -/
def inspectList (items : List String) : String :=
  "[" ++ ", ".intercalate items ++ "]"

/-- A name with fields. -/
def inspectFields (name : String) (fields : List (String × String)) : String :=
  name ++ " \x7b " ++ ", ".intercalate (fields.map fun f => f.1 ++ ": " ++ f.2) ++ " \x7d"

/-- A name with one value. -/
def inspectOne (name value : String) : String :=
  name ++ "(" ++ value ++ ")"

/-- A value, if there is one. -/
def inspectOption (value : Option String) : String :=
  (value.map (inspectOne "Some")).getD "None"

def ContainerError.inspect : ContainerError → String
  | .duplicateName contract name =>
    inspectFields "DuplicateName" [("contract", quote contract), ("name", quote name)]
  | .unresolvedName contract name =>
    inspectFields "UnresolvedName" [("contract", quote contract), ("name", quote name)]
  | .invalidName contract => inspectFields "InvalidName" [("contract", quote contract)]
  | .constructionFailed contract name reason =>
    inspectFields "ConstructionFailed" [("contract", quote contract), ("name", quote name),
      ("source", inspectFields "ConstructionError" [("reason", quote reason)])]
  | .contractMismatch contract name =>
    inspectFields "ContractMismatch" [("contract", quote contract), ("name", quote name)]
  | .endless => "Endless"

def ContextId.inspect (showContext : ContextId → String) (id : ContextId) : String :=
  inspectOne "ContextId" (showContext id)

def LoadCause.inspect (showContext : ContextId → String) : LoadCause → String
  | .missing => "Missing"
  | .malformed flaw => inspectOne "Malformed" (quote flaw.message)
  | .abiMismatch found =>
    inspectFields "AbiMismatch" [("expected", toString hostAbi), ("found", toString found)]
  | .unsatisfied name => inspectOne "UnsatisfiedDependency" (quote name)
  | .typeMismatch name expected found =>
    inspectFields "TypeMismatch" [("name", quote name), ("expected", quote expected.name),
      ("found", quote found.name)]
  | .alreadyLoaded name => inspectOne "AlreadyLoaded" (quote name)
  | .contextUnloaded id => inspectOne "ContextUnloaded" (id.inspect showContext)
  | .registration e => inspectOne "Registration" e.inspect
  | .panicked p => inspectOne "Panicked" (quote p.message)
  | .interrupted => inspectOne "Interrupted" (quote "panicked")
  | .timedOut limit => inspectOne "TimedOut" limit.text

/-- The names of the types a declaration requires; none when describing one of them panics. -/
def Declaration.requiredNames? {β : Type} (d : Declaration β) : Option (List String) :=
  d.requirements.mapM fun r => r.answer.toOption.map (·.name)

def Declaration.inspect? {β : Type} (d : Declaration β) : Option String :=
  d.requiredNames?.map fun names =>
    inspectFields "ModuleDeclaration" [("abi_version", toString d.abi), ("name", quote d.name),
      ("version", quote d.version), ("requires", inspectList (names.map quote)),
      ("exports", toString d.exports.length)]

def LoadedModule.inspect {β : Type} (showContext : ContextId → String) (m : LoadedModule β) :
    String :=
  inspectFields "LoadedModule" [("name", quote m.name), ("version", quote m.version),
    ("path", quote m.path.text), ("context", m.context.inspect showContext),
    ("dependencies", inspectList (m.dependencies.map fun t => quote t.name))]

def ModuleRecord.inspect {β : Type} (showContext : ContextId → String) (r : ModuleRecord β) :
    String :=
  let outcome := match r.outcome with
    | .ok m => inspectOne "Ok" (m.inspect showContext)
    | .error cause => inspectOne "Err" (inspectFields "LoadFailure"
        [("path", quote r.path.text), ("cause", cause.inspect showContext)])
  inspectFields "ModuleRecord" [("path", quote r.path.text),
    ("context", inspectOption (r.context.map (·.inspect showContext))), ("outcome", outcome),
    ("residue", inspectOption (r.residue.map fun m => quote m.name))]

end ModularHost

import ModularHost.Container.Basic
import ModularHost.Json.Decoder
import ModularHost.Text.Blank
/-!
# Connector sections

The part of a configuration that belongs to one connector: four keys with a meaning, and any others,
which are kept as they are. A value that is blank counts as missing, and blank ends count for
nothing.
-/

namespace ModularHost

structure ConnectorSection where
  implementation : Option String
  authType : Option String
  username : Option String
  password : Option String
  /-- The other keys, in order. -/
  settings : List (String × Json)

/-- The keys with a meaning. -/
inductive SectionKey where
  | implementation
  | authType
  | username
  | password
deriving DecidableEq, Repr

def SectionKey.name : SectionKey → String
  | .implementation => "implementation"
  | .authType => "auth_type"
  | .username => "http_auth_username"
  | .password => "http_auth_password"

/-- Why a connector does not come up. -/
inductive ConnectorError where
  | missingConfiguration (sectionName : String) (key : Option SectionKey)
  | unknownAuthType (sectionName authType : String)
  | resolution (error : ContainerError)
  | routeInUse (route : String)
deriving DecidableEq, Repr

def ConnectorError.message : ConnectorError → String
  | .missingConfiguration sectionName none => s!"Missing configuration in section [{sectionName}]"
  | .missingConfiguration sectionName (some key) =>
    s!"Missing configuration in section [{sectionName}]: key '{key.name}'"
  | .unknownAuthType sectionName authType =>
    s!"Invalid configuration in section [{sectionName}]: unknown auth_type '{authType}'"
  | .resolution e => e.message
  | .routeInUse route => s!"Route '{route}' already has a connector attached"

/-- How callers of a route must prove who they are. -/
inductive AuthMode where
  | none
  | basic (username password : String)
deriving DecidableEq, Repr

namespace ConnectorSection

def blank : ConnectorSection := ⟨none, none, none, none, []⟩

instance : Inhabited ConnectorSection := ⟨blank⟩

/-- A section that names an implementation and nothing else. -/
def ofImplementation (name : String) : ConnectorSection :=
  { blank with implementation := some name }

open Json.Decoder in
/-- The keys with a meaning, each a text or null. -/
def fields : List (RecordField ConnectorSection) :=
  [.absentable SectionKey.implementation.name (optional string)
     fun v s => { s with implementation := v },
   .absentable SectionKey.authType.name (optional string) fun v s => { s with authType := v },
   .absentable SectionKey.username.name (optional string) fun v s => { s with username := v },
   .absentable SectionKey.password.name (optional string) fun v s => { s with password := v }]

/-- Sections; a key without a meaning is kept with its value. -/
def decoder : Json.Decoder ConnectorSection :=
  .openRecord
    { label := "struct ConnectorSection"
      blank := blank
      fields := fields
      finish := fun _ rest s =>
        .ok { s with settings := sortMembers (Json.normalMembers rest) } }

/-- The member of a key, if it has a value. -/
def member (key : SectionKey) (value : Option String) : List (String × Json) :=
  (value.map fun v => (key.name, Json.str v)).toList

/-- A section as it is written: only the keys that have a value. -/
def toJson (s : ConnectorSection) : Json :=
  .ofMembers (member .implementation s.implementation ++ member .authType s.authType
    ++ member .username s.username ++ member .password s.password ++ s.settings)

/-- A value without its blank ends, if it is not blank. -/
def required (sectionName : String) (key : SectionKey) (value : Option String) :
    Except ConnectorError String :=
  match value.map Text.trim with
  | some v => if v.isEmpty then .error (.missingConfiguration sectionName (some key)) else .ok v
  | none => .error (.missingConfiguration sectionName (some key))

/-- The name of the implementation to connect. -/
def implementationName (s : ConnectorSection) (sectionName : String) :
    Except ConnectorError String :=
  required sectionName .implementation s.implementation

/-- How callers must prove who they are. -/
def authMode (s : ConnectorSection) (sectionName : String) : Except ConnectorError AuthMode :=
  match s.authType.map Text.trim with
  | none | some "" | some "None" => .ok .none
  | some "BasicHttpAuthentication" => do
    let username ← required sectionName .username s.username
    let password ← required sectionName .password s.password
    return .basic username password
  | some other => .error (.unknownAuthType sectionName other)

end ConnectorSection

/-- Sections under their names, in order, no two under one. -/
structure ConnectorSections where
  entries : List (String × ConnectorSection)

namespace ConnectorSections

def empty : ConnectorSections := ⟨[]⟩

instance : Inhabited ConnectorSections := ⟨empty⟩

def get? (s : ConnectorSections) (name : String) : Option ConnectorSection := s.entries.lookup name

/-- The section of a name, which has to be there. -/
def find (s : ConnectorSections) (name : String) : Except ConnectorError ConnectorSection :=
  match s.get? name with
  | some found => .ok found
  | none => .error (.missingConfiguration name none)

def names (s : ConnectorSections) : List String := s.entries.map (·.1)

def decoder : Json.Decoder ConnectorSections :=
  (Json.Decoder.dictionary ConnectorSection.decoder).map .mk

def toJson (s : ConnectorSections) : Json :=
  .obj (s.entries.map fun (name, s) => (name, s.toJson))

end ConnectorSections
end ModularHost

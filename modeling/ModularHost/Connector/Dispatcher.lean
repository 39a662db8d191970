import ModularHost.Asset.Service
import ModularHost.Connector.Section
/-!
# Dispatching requests

A request names a route, a method and data, and may carry credentials. It reaches the handler of its
route only when the route admits it; a request that cannot be read, has no route or is not admitted
is answered without any handler.
-/

namespace ModularHost

structure Credentials where
  username : String
  password : String
deriving DecidableEq, Repr

structure ServiceRequest where
  route : String
  method : String
  data : Json
  credentials : Option Credentials

open Json.Decoder in
def Credentials.decoder : Json.Decoder Credentials :=
  record "struct Credentials" ⟨"", ""⟩
    [.needed "username" string fun v c => { c with username := v },
     .needed "password" string fun v c => { c with password := v }]

def Credentials.toJson (c : Credentials) : Json :=
  .ofMembers [("username", .str c.username), ("password", .str c.password)]

namespace ServiceRequest

open Json.Decoder in
def decoder : Json.Decoder ServiceRequest :=
  record "struct ServiceRequest" ⟨"", "", .null, none⟩
    [.needed "route" string fun v r => { r with route := v },
     .needed "method" string fun v r => { r with method := v },
     .absentable "data" any fun v r => { r with data := v },
     .absentable "credentials" (optional Credentials.decoder)
       fun v r => { r with credentials := v }]

/-- A request as it is written; credentials only if there are any. -/
def toJson (r : ServiceRequest) : Json :=
  .ofMembers ([("route", .str r.route), ("method", .str r.method), ("data", r.data)]
    ++ (r.credentials.map fun c => ("credentials", c.toJson)).toList)

end ServiceRequest

/-- Why a request has no answer. -/
inductive DispatchError where
  | invalidRequest (fault : Json.Fault)
  | noRoute (route : String)
  | unauthorized (route : String)
  | service (error : ServiceError)
deriving DecidableEq, Repr

def DispatchError.message : DispatchError → String
  | .invalidRequest fault => "Invalid request: Invalid JSON: " ++ fault.message .json
  | .noRoute route => s!"No connector attached to route '{route}'"
  | .unauthorized route => s!"Unauthorized request for route '{route}'"
  | .service e => e.message

/-- What serves a route, and who may call it. -/
structure Route (H : Type) where
  handler : H
  auth : AuthMode

/-- Whether a request with some credentials may call the route. -/
def Route.admits {H : Type} (r : Route H) (credentials : Option Credentials) : Bool :=
  match r.auth with
  | .none => true
  | .basic username password =>
    credentials.any fun given => given.username == username && given.password == password

/-- The routes in the order they were attached, no two of one name. -/
structure Dispatcher (H : Type) where
  entries : List (String × Route H)

/-- A handler at work: it answers a method and may change a state. -/
abbrev Handling (H σ : Type) := H → σ → String → Json → Except ServiceError Json × σ

namespace Dispatcher

variable {H σ : Type}

def empty : Dispatcher H := ⟨[]⟩

instance : Inhabited (Dispatcher H) := ⟨empty⟩

def route? (d : Dispatcher H) (name : String) : Option (Route H) := d.entries.lookup name

/-- The names of the routes, in order. -/
def routes (d : Dispatcher H) : List String :=
  (d.entries.map (·.1)).mergeSort fun a b => !decide (b < a)

/-- Attaches a handler to a route that has none. -/
def attach (d : Dispatcher H) (name : String) (handler : H) (auth : AuthMode) :
    Except ConnectorError (Dispatcher H) :=
  if (d.route? name).isSome then .error (.routeInUse name)
  else .ok ⟨d.entries ++ [(name, ⟨handler, auth⟩)]⟩

/-- Passes a request to the handler of its route. -/
def dispatchRequest (d : Dispatcher H) (handle : Handling H σ) (state : σ) (r : ServiceRequest) :
    Except DispatchError Json × σ :=
  match d.route? r.route with
  | none => (.error (.noRoute r.route), state)
  | some route =>
    if route.admits r.credentials then
      let (reply, state) := handle route.handler state r.method r.data
      (reply.mapError .service, state)
    else (.error (.unauthorized r.route), state)

/-- Reads a request and passes it on. -/
def dispatch (d : Dispatcher H) (handle : Handling H σ) (state : σ) (text : String) :
    Except DispatchError Json × σ :=
  match ServiceRequest.decoder.decodeText text with
  | .error fault => (.error (.invalidRequest fault), state)
  | .ok r => d.dispatchRequest handle state r

end Dispatcher
end ModularHost

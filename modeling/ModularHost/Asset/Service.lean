import ModularHost.Asset.Basic
/-!
# Asset services

What an asset service is asked, what it answers, and three kinds of service: one that keeps assets
in memory, one that keeps nothing, and one that refuses whatever it is asked. An asset without an
identifier is given a new one when it is stored.
-/

namespace ModularHost

/-- What a service reports to its callers. -/
inductive ServiceError where
  | rejected (text : String)
  | invalidRequest (text : String)
  | unknownMethod (text : String)
  | internal (text : String)
deriving DecidableEq, Repr

def ServiceError.message : ServiceError → String
  | .rejected t => "Request rejected: " ++ t
  | .invalidRequest t => "Invalid request: " ++ t
  | .unknownMethod t => "Unknown method: " ++ t
  | .internal t => "Internal service error: " ++ t

/-! ## Assets in memory -/

/-- Assets under their identifiers, no two under one. -/
structure AssetShelf where
  entries : List (Uuid × Asset)

namespace AssetShelf

def empty : AssetShelf := ⟨[]⟩

instance : Inhabited AssetShelf := ⟨empty⟩

def find? (s : AssetShelf) (id : Uuid) : Option Asset := s.entries.lookup id

def contains (s : AssetShelf) (id : Uuid) : Bool := (s.find? id).isSome

def erase (s : AssetShelf) (id : Uuid) : AssetShelf := ⟨s.entries.filter (·.1 ≠ id)⟩

/-- Puts an asset under an identifier, in place of what was there. -/
def insert (s : AssetShelf) (id : Uuid) (a : Asset) : AssetShelf :=
  ⟨(id, a) :: (s.erase id).entries⟩

end AssetShelf

/-- What the services of a process keep: a shelf for each, by the serial number of the service, and
how many identifiers have been given out. -/
structure Vault where
  shelves : List (Nat × AssetShelf)
  issued : Nat

namespace Vault

def empty : Vault := ⟨[], 0⟩

instance : Inhabited Vault := ⟨empty⟩

def shelf (v : Vault) (service : Nat) : AssetShelf := (v.shelves.lookup service).getD .empty

def setShelf (v : Vault) (service : Nat) (s : AssetShelf) : Vault :=
  { v with shelves := (service, s) :: v.shelves.filter (·.1 ≠ service) }

end Vault

/-- Where new identifiers come from: the one for each count of those given out before. -/
abbrev IdSupply := Nat → Uuid

/-! ## Requests -/

inductive AssetMethod where
  | get
  | getMetadata
  | getData
  | store
  | delete
  | existence
deriving DecidableEq, Repr

/-- The methods under their names. -/
def AssetMethod.table : List (String × AssetMethod) :=
  [("get", .get), ("get_metadata", .getMetadata), ("get_data", .getData), ("store", .store),
   ("delete", .delete), ("exists", .existence)]

/-- What an asset service is asked. -/
inductive AssetRequest where
  | get (id : Uuid)
  | getMetadata (id : Uuid)
  | getData (id : Uuid)
  | store (asset : Asset)
  | delete (id : Uuid)
  | existence (ids : List Uuid)

def AssetRequest.method : AssetRequest → AssetMethod
  | .get _ => .get
  | .getMetadata _ => .getMetadata
  | .getData _ => .getData
  | .store _ => .store
  | .delete _ => .delete
  | .existence _ => .existence

/-- What an asset service answers. -/
inductive AssetReply where
  | asset (found : Option Asset)
  | metadata (found : Option AssetMetadata)
  | data (found : Option (List UInt8))
  | stored (id : Uuid)
  | deleted (was : Bool)
  | existence (found : List Bool)

def AssetReply.toJson : AssetReply → Json
  | .asset found => (found.map Asset.toJson).getD .null
  | .metadata found => (found.map AssetMetadata.toJson).getD .null
  | .data found => (found.map Asset.dataJson).getD .null
  | .stored id => .obj [("id", .str id.text)]
  | .deleted was => .obj [("deleted", .bool was)]
  | .existence found => .arr (found.map .bool)

open Json.Decoder in
/-- Requests that name one asset. -/
def byIdDecoder : Json.Decoder Uuid :=
  record "struct ById" .nil [.needed "id" uuid fun v _ => v]

open Json.Decoder in
/-- Requests that name several. -/
def byIdsDecoder : Json.Decoder (List Uuid) :=
  record "struct ByIds" [] [.needed "ids" (list uuid) fun v _ => v]

/-- The request that a method's data make. -/
def AssetRequest.decode (method : AssetMethod) (data : Json) : Except Json.Fault AssetRequest :=
  match method with
  | .get => (byIdDecoder.decode data).map .get
  | .getMetadata => (byIdDecoder.decode data).map .getMetadata
  | .getData => (byIdDecoder.decode data).map .getData
  | .store => (Asset.decoder.decode data).map .store
  | .delete => (byIdDecoder.decode data).map .delete
  | .existence => (byIdsDecoder.decode data).map .existence

/-! ## Services -/

/-- A kind of asset service. -/
inductive AssetService where
  /-- Keeps assets in memory. -/
  | memory
  /-- Keeps nothing. -/
  | null
  /-- Refuses each method with an error of its own. -/
  | refusing (error : AssetMethod → ServiceError)

/-- A memory service at work on its shelf; `fresh` is the identifier to give out next. The answer
says whether it was given out. -/
def AssetShelf.perform (s : AssetShelf) (fresh : Uuid) :
    AssetRequest → AssetReply × AssetShelf × Bool
  | .get id => (.asset (s.find? id), s, false)
  | .getMetadata id => (.metadata ((s.find? id).map (·.metadata)), s, false)
  | .getData id => (.data ((s.find? id).map (·.data)), s, false)
  | .store a =>
    if a.metadata.id = .nil then
      (.stored fresh, s.insert fresh { a with metadata := { a.metadata with id := fresh } }, true)
    else (.stored a.metadata.id, s.insert a.metadata.id a, false)
  | .delete id => (.deleted (s.contains id), s.erase id, false)
  | .existence ids => (.existence (ids.map s.contains), s, false)

/-- What a service that keeps nothing answers. -/
def nullReply : AssetRequest → AssetReply
  | .get _ => .asset none
  | .getMetadata _ => .metadata none
  | .getData _ => .data none
  | .store a => .stored a.metadata.id
  | .delete _ => .deleted false
  | .existence ids => .existence (ids.map fun _ => false)

/-- A service at work; `serial` tells which one it is. -/
def AssetService.perform (service : AssetService) (supply : IdSupply) (serial : Nat) (v : Vault)
    (request : AssetRequest) : Except ServiceError AssetReply × Vault :=
  match service with
  | .memory =>
    let (reply, shelf, given) := (v.shelf serial).perform (supply v.issued) request
    let v := v.setShelf serial shelf
    (.ok reply, if given then { v with issued := v.issued + 1 } else v)
  | .null => (.ok (nullReply request), v)
  | .refusing error => (.error (error request.method), v)

/-- Answers a method by name: its data are decoded before the service is asked. -/
def AssetService.handle (service : AssetService) (supply : IdSupply) (serial : Nat) (v : Vault)
    (method : String) (data : Json) : Except ServiceError Json × Vault :=
  match AssetMethod.table.lookup method with
  | none => (.error (.unknownMethod method), v)
  | some m =>
    match AssetRequest.decode m data with
    | .error fault => (.error (.invalidRequest (fault.message .json)), v)
    | .ok request =>
      let (reply, v) := service.perform supply serial v request
      (reply.map AssetReply.toJson, v)

end ModularHost

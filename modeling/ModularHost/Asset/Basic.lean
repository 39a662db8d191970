import ModularHost.Json.Decoder
/-!
# Assets

An asset is a payload with metadata. Its JSON form is one flat object that holds the metadata's
fields beside the payload. The payload is read where it stands, the metadata once the whole object
has been read; fields that neither has are ignored.
-/

namespace ModularHost

/-- What describes an asset. -/
structure AssetMetadata where
  id : Uuid
  name : String
  description : String
  assetType : Int8
  /-- Never shared with other services. -/
  isLocal : Bool
  /-- Not kept for good. -/
  isTemporary : Bool
  creatorId : String
deriving DecidableEq

structure Asset where
  metadata : AssetMetadata
  data : List UInt8
deriving DecidableEq

namespace AssetMetadata

/-- What the fields are before they are read. -/
def blank : AssetMetadata := ⟨.nil, "", "", 0, false, false, ""⟩

instance : Inhabited AssetMetadata := ⟨blank⟩

open Json.Decoder in
/-- The fields of the metadata, in order. -/
def fields : List (RecordField AssetMetadata) :=
  [.needed "id" uuid fun v m => { m with id := v },
   .needed "name" string fun v m => { m with name := v },
   .absentable "description" string fun v m => { m with description := v },
   .needed "asset_type" (integer (-128) 127 "i8") fun v m => { m with assetType := .ofInt v },
   .absentable "local" bool fun v m => { m with isLocal := v },
   .absentable "temporary" bool fun v m => { m with isTemporary := v },
   .absentable "creator_id" string fun v m => { m with creatorId := v }]

/-- The metadata's members of an object. -/
def members (m : AssetMetadata) : List (String × Json) :=
  [("id", .str m.id.text), ("name", .str m.name), ("description", .str m.description),
   ("asset_type", .int m.assetType.toInt), ("local", .bool m.isLocal),
   ("temporary", .bool m.isTemporary), ("creator_id", .str m.creatorId)]

def toJson (m : AssetMetadata) : Json := .ofMembers m.members

end AssetMetadata

namespace Asset

instance : Inhabited Asset := ⟨⟨.blank, []⟩⟩

open Json.Decoder in
/-- A byte, written as a number. -/
def byte : Json.Decoder UInt8 :=
  (integer 0 255 "u8").map fun n => .ofNat n.toNat

def dataJson (data : List UInt8) : Json := .arr (data.map fun b => .int b.toNat)

open Json.Decoder in
/-- Assets in their flat form. -/
def decoder : Json.Decoder Asset :=
  openRecord
    { label := "struct AssetBase"
      blank := default
      fields := [.absentable "data" (list byte) fun v a => { a with data := v }]
      finish := fun dialect rest a =>
        (recordOfMembers .blank AssetMetadata.fields dialect rest).map fun m =>
          { a with metadata := m } }

def toJson (a : Asset) : Json :=
  .ofMembers (a.metadata.members ++ [("data", dataJson a.data)])

end Asset
end ModularHost

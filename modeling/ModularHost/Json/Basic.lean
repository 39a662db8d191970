import ModularHost.Number.Binary64
/-!
# JSON values

One tree for every value. An object keeps its members in a list, so that a tree can also stand for
a text whose keys come in any order or repeat, and it may hold a date, which comes from documents of
another kind. `Json.normal` is the value that such a tree means: each key once, with its last value,
in the order of the keys; null for a number that is not finite, which JSON cannot write; and for a
date an object with one member.
-/

namespace ModularHost

/-- A JSON value. Whole numbers and others are kept apart: `1` is not `1.0`. -/
inductive Json where
  | null
  | bool (value : Bool)
  | int (value : Int)
  | real (value : Number.Binary64)
  | str (value : String)
  | arr (items : List Json)
  | obj (members : List (String × Json))
  /-- A date or a time, as it is written. -/
  | date (text : String)
deriving Inhabited

/-- Puts a value under a key into members that are in key order, in place of what was there. -/
def insertMember {α : Type} (key : String) (value : α) : List (String × α) → List (String × α)
  | [] => [(key, value)]
  | (k, v) :: rest =>
    if key = k then (key, value) :: rest
    else if key < k then (key, value) :: (k, v) :: rest
    else (k, v) :: insertMember key value rest

/-- Members in key order, the last value of a repeated key. -/
def sortMembers {α : Type} (members : List (String × α)) : List (String × α) :=
  members.foldl (fun sorted m => insertMember m.1 m.2 sorted) []

namespace Json

/-- The key of the one member that a date has where it is taken for an object. -/
def dateKey : String := "$__toml_private_datetime"

/-- A date's members where it is taken for an object. -/
def dateMembers (text : String) : List (String × Json) := [(dateKey, .str text)]

mutual

/-- The value that a tree means. -/
def normal : Json → Json
  | .real x => if x.isFinite then .real x else .null
  | .arr items => .arr (normalItems items)
  | .obj members => .obj (sortMembers (normalMembers members))
  | .date text => .obj (dateMembers text)
  | v => v

/-- `normal` on each element. -/
def normalItems : List Json → List Json
  | [] => []
  | v :: rest => v.normal :: normalItems rest

/-- `normal` on each member's value. -/
def normalMembers : List (String × Json) → List (String × Json)
  | [] => []
  | (k, v) :: rest => (k, v.normal) :: normalMembers rest

end

/-- The members of an object, or of a date taken for one; none for any other value. -/
def members? : Json → Option (List (String × Json))
  | .obj members => some members
  | .date text => some (dateMembers text)
  | _ => none

/-- The value of a member. -/
def get? (v : Json) (key : String) : Option Json :=
  v.members?.bind fun members => members.lookup key

/-- An object, in key order. -/
def ofMembers (members : List (String × Json)) : Json :=
  .obj (sortMembers members)

end Json
end ModularHost

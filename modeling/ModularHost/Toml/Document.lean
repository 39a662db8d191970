import ModularHost.Json.Basic
/-!
# Building a TOML document

A document is built from key paths with values and from headers. A table is made once: by its
header, or by the dots of keys; one that came about only on the way to another may still be given
its header. Whatever would define a thing twice, or put something inside a value, is refused.
-/

namespace ModularHost
namespace Toml

/-- How a table came about: on the way to another, and by the dots of a key. -/
structure Standing where
  isImplicit : Bool
  isDotted : Bool
deriving DecidableEq, Repr

/-- The standing of a table with a header. -/
def Standing.header : Standing := ⟨false, false⟩

/-- What stands under a key. -/
inductive Node where
  | value (value : Json)
  | table (standing : Standing) (entries : List (String × Node))
  /-- Tables under one header, the latest last. -/
  | tables (elements : List Node)

/-- Keys with what stands under them, in the order they came. -/
abbrev Entries := List (String × Node)

mutual

/-- The tree of a node. -/
def Node.toJson : Node → Json
  | .value v => v
  | .table _ entries => .obj (Entries.toMembers entries)
  | .tables elements => .arr (Node.toItems elements)

/-- The members of a table. -/
def Entries.toMembers : List (String × Node) → List (String × Json)
  | [] => []
  | (key, node) :: rest => (key, node.toJson) :: Entries.toMembers rest

/-- The elements of a list of tables. -/
def Node.toItems : List Node → List Json
  | [] => []
  | node :: rest => node.toJson :: Node.toItems rest

end

/-- Puts something else under a key that is there. -/
def Entries.replace (entries : Entries) (key : String) (node : Node) : Entries :=
  entries.map fun entry => if entry.1 = key then (key, node) else entry

/-- Changes the table that a path leads to, making those on the way that are not there. A path of
dots does not lead through a table that has its own header. -/
def descend {α : Type} (dotted : Bool) (change : Standing → Entries → Option (Entries × α)) :
    List String → Standing → Entries → Option (Entries × α)
  | [], standing, entries => change standing entries
  | key :: path, _, entries =>
    match entries.lookup key with
    | none => do
      let standing : Standing := ⟨true, dotted⟩
      let (inner, a) ← descend dotted change path standing []
      return (entries ++ [(key, .table standing inner)], a)
    | some (.value _) => none
    | some (.table standing inner) =>
      if dotted && !standing.isImplicit then none
      else do
        let (inner, a) ← descend dotted change path standing inner
        return (entries.replace key (.table standing inner), a)
    | some (.tables elements) =>
      match elements.getLast? with
      | some (.table standing inner) => do
        let (inner, a) ← descend dotted change path standing inner
        return (entries.replace key (.tables (elements.dropLast ++ [.table standing inner])), a)
      | _ => none

/-- Puts a value under a path of keys. A table made by dots takes values by dots only, any other by
plain keys only. -/
def insertValue (path : List String) (value : Json) (standing : Standing) (entries : Entries) :
    Option Entries :=
  match path.getLast? with
  | none => none
  | some key =>
    let above := path.dropLast
    (descend true (fun standing entries =>
      if standing.isDotted == above.isEmpty || (entries.lookup key).isSome then none
      else some (entries ++ [(key, .value value)], ())) above standing entries).map (·.1)

/-- The table between braces that some paths with values make. -/
def inlineTable (pairs : List (List String × Json)) : Option Json :=
  (pairs.foldlM (fun entries pair => insertValue pair.1 pair.2 .header entries) []).map
    fun entries => .obj (Entries.toMembers entries)

/-- A document under construction: what is finished, and the table that values go into now with the
header it has. -/
structure Draft where
  root : Entries
  path : List String
  isElement : Bool
  current : Entries

namespace Draft

def empty : Draft := ⟨[], [], false, []⟩

/-- A value with its path of keys. -/
def add (d : Draft) (path : List String) (value : Json) : Option Draft :=
  (insertValue path value .header d.current).map fun current => { d with current }

/-- The current table takes its place in the document. -/
def finish (d : Draft) : Option Entries :=
  match d.path.getLast? with
  | none => some d.current
  | some key =>
    (descend false (fun _ entries =>
      let table := Node.table .header d.current
      match entries.lookup key, d.isElement with
      | none, false => some (entries ++ [(key, table)], ())
      | some (.tables elements), true =>
        some (entries.replace key (.tables (elements ++ [table])), ())
      | _, _ => none) d.path.dropLast .header d.root).map (·.1)

/-- The header of a table. What came about on the way to another table is taken over. -/
def openTable (d : Draft) (path : List String) : Option Draft := do
  let root ← d.finish
  let key ← path.getLast?
  let (root, current) ← descend false (fun _ entries =>
    match entries.lookup key with
    | none => some (entries, [])
    | some (.table ⟨true, false⟩ inner) => some (entries.filter (·.1 ≠ key), inner)
    | some _ => none) path.dropLast .header root
  return ⟨root, path, false, current⟩

/-- The header of one more table in a list of tables. -/
def openElement (d : Draft) (path : List String) : Option Draft := do
  let root ← d.finish
  let key ← path.getLast?
  let (root, _) ← descend false (fun _ entries =>
    match entries.lookup key with
    | none => some (entries ++ [(key, .tables [])], ())
    | some (.tables _) => some (entries, ())
    | some _ => none) path.dropLast .header root
  return ⟨root, path, true, []⟩

end Draft
end Toml
end ModularHost

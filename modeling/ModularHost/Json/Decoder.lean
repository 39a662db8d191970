import ModularHost.Json.Reader
import ModularHost.Uuid
/-!
# Decoding

A decoder says how a value of some type is taken from a document, both from a tree and straight
from a text. The two agree on what they accept; they differ in what they report, because a text is
read from front to back and stops at the first thing wrong with it, be it a wrong shape here or bad
syntax further on.

Records are decoded field by field into a blank record. A field that may be absent keeps what the
blank has; a field that must be there is missed by name.
-/

namespace ModularHost
namespace Json

/-- How values of a type are taken from a tree and from a text. From a text it answers the
characters left; `depth` is the number of brackets still allowed. -/
structure Decoder (α : Type) where
  ofTree : Dialect → Json → Except Fault α
  ofText : (depth : Nat) → List Char → Except Fault (α × List Char)

namespace Decoder

/-- Decodes a tree that came from JSON. -/
def decode {α : Type} (d : Decoder α) (v : Json) : Except Fault α :=
  d.ofTree .json v

/-- Decodes a whole text. -/
def decodeText {α : Type} (d : Decoder α) (s : String) : Except Fault α := do
  let (a, rest) ← d.ofText depthLimit s.toList
  endDocument rest
  return a

def map {α β : Type} (f : α → β) (d : Decoder α) : Decoder β where
  ofTree dialect v := (d.ofTree dialect v).map f
  ofText depth s := (d.ofText depth s).map fun (a, rest) => (f a, rest)

/-! ## Scalars -/

/-- A decoder that looks only at a value's head: a scalar is read whole before it is judged, a
container is refused at its bracket. -/
def scalar {α : Type} (take : Json → Except Fault α) (wanted : String) : Decoder α where
  ofTree _ v := take v
  ofText _ s := do
    let (head, rest) ← lift (scanHead s)
    match head with
    | .scalar v => return (← take v, rest)
    | head => .error (.invalidType head.found wanted)

/-- A text, called `wanted` when something else stands there. -/
def text (wanted : String) : Decoder String :=
  scalar (fun v => match v with
    | .str s => .ok s
    | v => .error (.invalidType v.found wanted)) wanted

def string : Decoder String := text "a string"

def bool : Decoder Bool :=
  scalar (fun v => match v with
    | .bool b => .ok b
    | v => .error (.invalidType v.found "a boolean")) "a boolean"

/-- A whole number within bounds. -/
def integer (least greatest : Int) (wanted : String) : Decoder Int :=
  scalar (fun v => match v with
    | .int n =>
      if least ≤ n ∧ n ≤ greatest then .ok n else .error (.invalidValue (.int n) wanted)
    | v => .error (.invalidType v.found wanted)) wanted

def uuid : Decoder Uuid :=
  scalar (fun v => match v with
    | .str s => match Uuid.parse? s.toList with
      | some u => .ok u
      | none => .error .malformedUuid
    | v => .error (.invalidType v.found "a formatted UUID string")) "a formatted UUID string"

/-! ## Containers -/

/-- Any value. -/
def any : Decoder Json where
  ofTree _ v := .ok v.normal
  ofText depth s := (readTree depth s).map fun (v, rest) => (v.normal, rest)

/-- A value, or null for none. -/
def optional {α : Type} (d : Decoder α) : Decoder (Option α) where
  ofTree dialect v := match v with
    | .null => .ok none
    | v => (d.ofTree dialect v).map some
  ofText depth s := match skipSpaces s with
    | 'n' :: rest => do
      let rest ← lift (scanLiteral ['u', 'l', 'l'] rest)
      return (none, rest)
    | s => (d.ofText depth s).map fun (a, rest) => (some a, rest)

/-- A list of values. -/
def list {α : Type} (d : Decoder α) : Decoder (List α) where
  ofTree dialect v := match v with
    | .arr items => items.mapM (d.ofTree dialect)
    | v => .error (.invalidType v.found "a sequence")
  ofText depth s := do
    let (head, rest) ← lift (scanHead s)
    match head, depth with
    | .openList, 0 => .error (.malformed .recursionLimit)
    | .openList, depth + 1 => readElements (d.ofText depth) (rest.length + 1) true rest
    | head, _ => .error (.invalidType head.found "a sequence")

/-- A value under each key, in key order, the last of a repeated key. -/
def dictionary {α : Type} (d : Decoder α) : Decoder (List (String × α)) where
  ofTree dialect v := match v.members? with
    | some members => do
      let decoded ← members.mapM fun (k, v) => (d.ofTree dialect v).map (k, ·)
      return sortMembers decoded
    | none => .error (.invalidType v.found "a map")
  ofText depth s := do
    let (head, rest) ← lift (scanHead s)
    match head, depth with
    | .openObject, 0 => .error (.malformed .recursionLimit)
    | .openObject, depth + 1 =>
      let (ms, rest) ← readMembers (readMember (d.ofText depth)) (rest.length + 1) true [] rest
      return (sortMembers ms.reverse, rest)
    | head, _ => .error (.invalidType head.found "a map")

/-! ## Variants -/

/-- The variant of a name. -/
def variant {α : Type} (variants : List (String × α)) (name : String) : Except Fault α :=
  match variants.lookup name with
  | some a => .ok a
  | none => .error (.unknownVariant name (variants.map (·.1)))

/-- One of a fixed set of names, alone or as the only key of an object without content. A date is
no such object. -/
def variants {α : Type} (known : List (String × α)) : Decoder α where
  ofTree dialect v := match dialect, v with
    | _, .str name => variant known name
    | .json, .obj [(name, content)] => do
      let a ← variant known name
      match content with
      | .null => return a
      | content => .error (.invalidType content.found "unit")
    | .json, .obj _ => .error (.invalidValue .map "map with a single key")
    | .json, v => .error (.invalidType v.found "string or map")
    | .toml, .obj [(name, content)] => do
      let a ← variant known name
      match content with
      | .obj [] | .arr [] => return a
      | _ => .error .notOneVariant
    | .toml, _ => .error .notOneVariant
  ofText depth s := match skipSpaces s, depth with
    | [], _ => .error (.malformed .eofValue)
    | '"' :: rest, _ => do
      let (name, rest) ← lift (scanString rest)
      return (← variant known name, rest)
    | '{' :: _, 0 => .error (.malformed .recursionLimit)
    | '{' :: rest, depth + 1 => do
      match ← lift (nextMember true rest) with
      | .close _ => .error (.malformed .expectedValue)
      | .more rest =>
        let (name, rest) ← lift (scanString rest)
        let a ← variant known name
        let rest ← lift (scanColon rest)
        let (_, rest) ← nothing.ofText depth rest
        match skipSpaces rest with
        | [] => .error (.malformed .eofObject)
        | '}' :: rest => return (a, rest)
        | _ => .error (.malformed .expectedValue)
    | _ :: _, _ => .error (.malformed .expectedValue)
where
  /-- The content of a variant: null. -/
  nothing : Decoder Unit :=
    scalar (fun v => match v with
      | .null => .ok ()
      | v => .error (.invalidType v.found "unit")) "unit"

/-! ## Records -/

/-- A field of a record: its name, whether it must be there, and what its value changes. -/
structure RecordField (α : Type) where
  name : String
  required : Bool
  value : Decoder (α → α)

/-- A field that must be there. -/
def RecordField.needed {α β : Type} (name : String) (d : Decoder β) (set : β → α → α) :
    RecordField α :=
  ⟨name, true, d.map set⟩

/-- A field that may be absent. -/
def RecordField.absentable {α β : Type} (name : String) (d : Decoder β) (set : β → α → α) :
    RecordField α :=
  ⟨name, false, d.map set⟩

/-- The first required field not among those seen. -/
def checkPresent {α : Type} (fields : List (RecordField α)) (seen : List String) :
    Except Fault Unit :=
  match fields.find? fun f => f.required && !seen.contains f.name with
  | some f => .error (.missingField f.name)
  | none => .ok ()

/-- A record under construction, and the fields seen so far. -/
abbrev Draft (α : Type) := α × List String

/-- One member of a tree taken into a record: an unknown one is ignored, a repeated one refused. -/
def takeMember {α : Type} (fields : List (RecordField α)) (dialect : Dialect) (draft : Draft α)
    (member : String × Json) : Except Fault (Draft α) :=
  match fields.find? (·.name == member.1) with
  | none => .ok draft
  | some f =>
    if draft.2.contains f.name then .error (.duplicateField f.name)
    else do
      let change ← f.value.ofTree dialect member.2
      return (change draft.1, f.name :: draft.2)

/-- A record from the members of a tree. -/
def recordOfMembers {α : Type} (blank : α) (fields : List (RecordField α)) (dialect : Dialect)
    (members : List (String × Json)) : Except Fault α := do
  let (a, seen) ← members.foldlM (takeMember fields dialect) (blank, [])
  checkPresent fields seen
  return a

/-- The name by which a list too short for a record is told what it lacks. -/
def recordLength (label : String) (count : Nat) : String :=
  label ++ " with " ++ toString count ++ (if count = 1 then " element" else " elements")

/-- A record from the elements of a tree, one for each field in order; `index` counts them. -/
def recordOfElements {α : Type} (label : String) (count : Nat) (dialect : Dialect) :
    (index : Nat) → List (RecordField α) → List Json → α → Except Fault α
  | _, [], [], a => .ok a
  | index, [], rest, a =>
    match dialect with
    | .json => .error (.invalidLength (index + rest.length) "fewer elements in array")
    | .toml => .ok a
  | index, f :: fields, [], a =>
    if f.required then .error (.invalidLength index (recordLength label count))
    else recordOfElements label count dialect (index + 1) fields [] a
  | index, f :: fields, v :: rest, a => do
    let change ← f.value.ofTree dialect v
    recordOfElements label count dialect (index + 1) fields rest (change a)

/-- One member of a text taken into a record. -/
def readField {α : Type} (fields : List (RecordField α)) (depth : Nat) (draft : Draft α)
    (key : String) (s : List Char) : Except Fault (Draft α × List Char) :=
  match fields.find? (·.name == key) with
  | none => do
    let s ← lift (scanColon s)
    let s ← skip s
    return (draft, s)
  | some f =>
    if draft.2.contains f.name then .error (.duplicateField f.name)
    else do
      let s ← lift (scanColon s)
      let (change, s) ← f.value.ofText depth s
      return ((change draft.1, f.name :: draft.2), s)

/-- A record from the elements of a text. -/
def readFields {α : Type} (label : String) (count depth : Nat) :
    (index : Nat) → List (RecordField α) → List Char → α → Except Fault (α × List Char)
  | _, [], s, a => do
    let rest ← lift (closeList s)
    return (a, rest)
  | index, f :: fields, s, a => do
    match ← lift (nextElement (index == 0) s) with
    | .close rest => checkRest index (f :: fields) a rest
    | .more s =>
      let (change, s) ← f.value.ofText depth s
      readFields label count depth (index + 1) fields s (change a)
where
  /-- The fields for which the list has no element. -/
  checkRest (index : Nat) : List (RecordField α) → α → List Char → Except Fault (α × List Char)
    | [], a, rest => .ok (a, rest)
    | f :: fields, a, rest =>
      if f.required then .error (.invalidLength index (recordLength label count))
      else checkRest (index + 1) fields a rest

/-- A record: an object with the fields as members in any order, or a list of the fields' values
in their order. -/
def record {α : Type} (label : String) (blank : α) (fields : List (RecordField α)) : Decoder α where
  ofTree dialect v := match v with
    | .obj members => recordOfMembers blank fields dialect members
    | .date text => recordOfMembers blank fields dialect (dateMembers text)
    | .arr items => recordOfElements label fields.length dialect 0 fields items blank
    | v => .error (.invalidType v.found label)
  ofText depth s := do
    let (head, rest) ← lift (scanHead s)
    match head, depth with
    | .scalar v, _ => .error (.invalidType v.found label)
    | _, 0 => .error (.malformed .recursionLimit)
    | .openObject, depth + 1 =>
      let ((a, seen), rest) ←
        readMembers (readField fields depth) (rest.length + 1) true (blank, []) rest
      checkPresent fields seen
      return (a, rest)
    | .openList, depth + 1 => readFields label fields.length depth 0 fields rest blank

/-! ## Records with room for more -/

/-- A record that keeps the members which are no fields of its own, for `finish` to deal with once
the whole object has been read. Only an object will do. -/
structure OpenRecord (α : Type) where
  label : String
  blank : α
  fields : List (RecordField α)
  finish : Dialect → List (String × Json) → α → Except Fault α

/-- One member of a tree: a field's value is taken at once, any other is put aside. -/
def takeOrKeep {α : Type} (fields : List (RecordField α)) (dialect : Dialect)
    (state : Draft α × List (String × Json)) (member : String × Json) :
    Except Fault (Draft α × List (String × Json)) :=
  match fields.find? (·.name == member.1) with
  | none => .ok (state.1, member :: state.2)
  | some _ => do return (← takeMember fields dialect state.1 member, state.2)

/-- One member of a text, likewise. -/
def readOrKeep {α : Type} (fields : List (RecordField α)) (depth : Nat)
    (state : Draft α × List (String × Json)) (key : String) (s : List Char) :
    Except Fault ((Draft α × List (String × Json)) × List Char) :=
  match fields.find? (·.name == key) with
  | none => do
    let (kept, s) ← readMember (readTree depth) state.2 key s
    return ((state.1, kept), s)
  | some _ => do
    let (draft, s) ← readField fields depth state.1 key s
    return ((draft, state.2), s)

/-- The record once every member has been seen. -/
def OpenRecord.complete {α : Type} (r : OpenRecord α) (dialect : Dialect)
    (state : Draft α × List (String × Json)) : Except Fault α := do
  checkPresent r.fields state.1.2
  r.finish dialect state.2.reverse state.1.1

def openRecord {α : Type} (r : OpenRecord α) : Decoder α where
  ofTree dialect v := match v.members? with
    | some members => do
      let state ← members.foldlM (takeOrKeep r.fields dialect) ((r.blank, []), [])
      r.complete dialect state
    | none => .error (.invalidType v.found r.label)
  ofText depth s := do
    let (head, rest) ← lift (scanHead s)
    match head, depth with
    | .openObject, 0 => .error (.malformed .recursionLimit)
    | .openObject, depth + 1 =>
      let (state, rest) ← readMembers (readOrKeep r.fields depth) (rest.length + 1) true
        ((r.blank, []), []) rest
      return (← r.complete .json state, rest)
    | head, _ => .error (.invalidType head.found r.label)

end Decoder
end Json
end ModularHost

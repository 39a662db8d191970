import Mathlib.Data.Finmap
import ModularHost.Asset.Service
import ModularHost.Proofs.Json.Members
/-!
# What a shelf holds

A shelf is a list of assets under their identifiers. What it holds is a finite map
(`AssetShelf.contents`), and a memory service answers each request as that map does
(`AssetShelf.perform_eq_answer`): storing puts an asset in the place of what was there, deleting
takes one away, and everything else only looks. What the map answers is said in terms of the one
JSON form of an asset, of which its metadata and its payload are parts.
-/


namespace ModularHost

/-! ## The JSON form of an asset and its parts -/

namespace Json

/-- An object without one of its members. -/
def without (key : String) : Json → Json
  | .obj members => .obj (members.filter fun m => m.1 != key)
  | v => v

end Json

namespace Asset

/-- Metadata and payload stand side by side, in the order of the keys. -/
theorem toJson_eq (a : Asset) : a.toJson = .obj
    [("asset_type", .int a.metadata.assetType.toInt), ("creator_id", .str a.metadata.creatorId),
     ("data", dataJson a.data), ("description", .str a.metadata.description),
     ("id", .str a.metadata.id.text), ("local", .bool a.metadata.isLocal),
     ("name", .str a.metadata.name), ("temporary", .bool a.metadata.isTemporary)] := by
  simp only [toJson, AssetMetadata.members, Json.ofMembers, sortMembers, insertMember,
    List.cons_append, List.nil_append, List.foldl_cons, List.foldl_nil, String.reduceEq,
    String.reduceLT, if_false, if_true]

theorem without_data_toJson (a : Asset) : a.toJson.without "data" = a.metadata.toJson := by
  rw [toJson_eq]
  simp only [Json.without, AssetMetadata.toJson, AssetMetadata.members, Json.ofMembers,
    sortMembers, insertMember, List.foldl_cons, List.foldl_nil, String.reduceEq, String.reduceLT,
    if_false, if_true]
  rfl

theorem get?_data_toJson (a : Asset) : a.toJson.get? "data" = some (dataJson a.data) := by
  rw [toJson_eq]
  rfl

/-- The asset under an identifier of its own, which is a new one if it came without. -/
def identified (a : Asset) (fresh : Uuid) : Asset :=
  if a.metadata.id = .nil then { a with metadata := { a.metadata with id := fresh } } else a

end Asset

/-! ## The map -/

/-- Assets under their identifiers. -/
abbrev AssetMap := Finmap fun _ : Uuid => Asset

/-- Whether a request needs a new identifier. -/
def AssetRequest.unnamed : AssetRequest → Bool
  | .store a => decide (a.metadata.id = .nil)
  | _ => false

namespace AssetMap

/-- **What a map answers, and what becomes of it.** `fresh` is the new identifier, if one is
needed. -/
def answer (m : AssetMap) (fresh : Uuid) : AssetRequest → Json × AssetMap
  | .get id => (((m.lookup id).map Asset.toJson).getD .null, m)
  | .getMetadata id => (((m.lookup id).map fun a => a.toJson.without "data").getD .null, m)
  | .getData id => (((m.lookup id).bind fun a => a.toJson.get? "data").getD .null, m)
  | .store a =>
    (.obj [("id", .str (a.identified fresh).metadata.id.text)],
      m.insert (a.identified fresh).metadata.id (a.identified fresh))
  | .delete id => (.obj [("deleted", .bool (m.lookup id).isSome)], m.erase id)
  | .existence ids => (.arr (ids.map fun id => .bool (m.lookup id).isSome), m)

/-- Each asset is under its own identifier, and none is under the one that stands for none. -/
structure SelfNamed (m : AssetMap) : Prop where
  own : ∀ id a, m.lookup id = some a → a.metadata.id = id
  named : m.lookup .nil = none

variable {m : AssetMap} {fresh : Uuid}

theorem selfNamed_empty : SelfNamed ∅ where
  own id a h := by simp at h
  named := Finmap.lookup_empty _

/-- A request finds afterwards what was there before, or what it stores itself. -/
theorem lookup_answer {request : AssetRequest} {id : Uuid} {a : Asset}
    (h : (m.answer fresh request).2.lookup id = some a) :
    m.lookup id = some a ∨ ∃ stored, request = .store stored ∧ a = stored.identified fresh ∧
      id = (stored.identified fresh).metadata.id := by
  cases request with
  | get | getMetadata | getData | existence => exact .inl h
  | store stored =>
    simp only [answer] at h
    by_cases hid : id = (stored.identified fresh).metadata.id
    · subst hid
      rw [Finmap.lookup_insert, Option.some.injEq] at h
      exact .inr ⟨stored, rfl, h.symm, rfl⟩
    · rw [Finmap.lookup_insert_of_ne _ hid] at h
      exact .inl h
  | delete id' =>
    simp only [answer] at h
    by_cases hid : id = id'
    · rw [hid, Finmap.lookup_erase] at h
      cases h
    · rw [Finmap.lookup_erase_ne hid] at h
      exact .inl h

/-- **A request keeps every asset under its own identifier**, if new identifiers are identifiers. -/
theorem SelfNamed.answer (h : m.SelfNamed) (hfresh : fresh ≠ .nil) (request : AssetRequest) :
    (m.answer fresh request).2.SelfNamed where
  own id a ha := by
    rcases lookup_answer ha with hold | ⟨stored, -, rfl, rfl⟩
    · exact h.own id a hold
    · rfl
  named := by
    by_contra hsome
    obtain ⟨a, ha⟩ := Option.ne_none_iff_exists'.1 hsome
    rcases lookup_answer ha with hold | ⟨stored, -, -, hnil⟩
    · rw [h.named] at hold
      cases hold
    · -- an asset that is stored has an identifier by then
      unfold Asset.identified at hnil
      split at hnil
      · exact hfresh hnil.symm
      · exact absurd hnil.symm ‹_›

end AssetMap

/-! ## Shelves as maps -/

namespace AssetShelf

variable {s : AssetShelf}

/-- What a shelf holds. -/
def contents (s : AssetShelf) : AssetMap :=
  (s.entries.map fun e => (⟨e.1, e.2⟩ : Sigma fun _ : Uuid => Asset)).toFinmap

@[simp] theorem lookup_contents (s : AssetShelf) (id : Uuid) :
    s.contents.lookup id = s.find? id := by
  obtain ⟨entries⟩ := s
  rw [contents, Finmap.dlookup_list_toFinmap, find?]
  induction entries with
  | nil => rfl
  | cons e rest ih =>
    obtain ⟨key, a⟩ := e
    by_cases hid : key = id
    · subst hid
      simp
    · have hne : (id == key) = false := by simpa using Ne.symm hid
      rw [List.map_cons, List.dlookup_cons_ne _ _ (fun h => hid h.symm), ih, List.lookup_cons, hne]

theorem find?_erase (s : AssetShelf) (id id' : Uuid) :
    (s.erase id).find? id' = if id' = id then none else s.find? id' := by
  split
  · rename_i hid
    subst hid
    refine lookup_eq_none_of_not_mem fun hmem => ?_
    obtain ⟨e, he, rfl⟩ := List.mem_map.1 hmem
    simpa using List.of_mem_filter he
  · rename_i hid
    exact lookup_filter s.entries (p := fun key => decide (key ≠ id)) (by simpa using hid)

theorem contents_erase (s : AssetShelf) (id : Uuid) :
    (s.erase id).contents = s.contents.erase id := by
  refine Finmap.ext_lookup fun id' => ?_
  rw [lookup_contents, find?_erase]
  by_cases hid : id' = id
  · rw [if_pos hid, hid, Finmap.lookup_erase]
  · rw [if_neg hid, Finmap.lookup_erase_ne hid, lookup_contents]

theorem contents_insert (s : AssetShelf) (id : Uuid) (a : Asset) :
    (s.insert id a).contents = s.contents.insert id a := by
  refine Finmap.ext_lookup fun id' => ?_
  rw [lookup_contents, insert, find?]
  by_cases hid : id' = id
  · rw [hid, Finmap.lookup_insert]
    simp
  · have hne : (id' == id) = false := by simpa using hid
    have hrest := find?_erase s id id'
    rw [if_neg hid] at hrest
    rw [Finmap.lookup_insert_of_ne _ hid, lookup_contents, List.lookup_cons, hne]
    exact hrest

/-- **A memory service answers as the map that its shelf holds**, and holds afterwards what that map
becomes. -/
theorem perform_eq_answer (s : AssetShelf) (fresh : Uuid) (request : AssetRequest) :
    (s.perform fresh request).1.toJson = (s.contents.answer fresh request).1 ∧
    (s.perform fresh request).2.1.contents = (s.contents.answer fresh request).2 ∧
    (s.perform fresh request).2.2 = request.unnamed := by
  cases request with
  | get id => simp [perform, AssetMap.answer, AssetReply.toJson, AssetRequest.unnamed]
  | getMetadata id =>
    cases hfind : s.find? id <;>
      simp [perform, AssetMap.answer, AssetReply.toJson, AssetRequest.unnamed, hfind,
        Asset.without_data_toJson]
  | getData id =>
    cases hfind : s.find? id <;>
      simp [perform, AssetMap.answer, AssetReply.toJson, AssetRequest.unnamed, hfind,
        Asset.get?_data_toJson]
  | store a =>
    by_cases hnil : a.metadata.id = .nil <;>
      simp [perform, AssetMap.answer, AssetReply.toJson, AssetRequest.unnamed, hnil,
        Asset.identified, contents_insert]
  | delete id =>
    simp [perform, AssetMap.answer, AssetReply.toJson, AssetRequest.unnamed, contents_erase,
      contains]
  | existence ids =>
    simp [perform, AssetMap.answer, AssetReply.toJson, AssetRequest.unnamed, contains]

end AssetShelf

end ModularHost

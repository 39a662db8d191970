import ModularHost.Asset.Service
import ModularHost.Proofs.Asset.Identifier
import ModularHost.Proofs.Json.Fields
/-!
# What a request asks

A request to an asset service is a method and data. The data name an asset, or several, or are one;
an identifier counts in any of its forms, and whatever else the data say is ignored.
`AssetRequest.Asked` says which request a method and data make, and no data make any other
(`AssetRequest.decode_eq_ok_iff`).
-/


namespace ModularHost

/-- Data have one value for a name: the one member of an object that has the name, or the one
element of a list. -/
inductive Json.Sole : (data : Json) → (name : String) → (v : Json) → Prop
  | member {members : List (String × Json)} {name : String} {v : Json} :
    (members.filter fun m => m.1 == name) = [(name, v)] → Sole (.obj members) name v
  | element {name : String} {v : Json} : Sole (.arr [v]) name v

/-- A value is an identifier in one of its forms. -/
def Json.Spells (v : Json) (id : Uuid) : Prop := ∃ s, v = .str s ∧ id.Written s.toList

namespace Json.Decoder

theorem uuid_ofTree_eq_ok_iff {dialect : Dialect} {v : Json} {id : Uuid} :
    uuid.ofTree dialect v = .ok id ↔ v.Spells id := by
  unfold Json.Spells
  cases v with
  | str s =>
    simp only [uuid, scalar, Json.str.injEq, exists_eq_left', ← Uuid.parse?_eq_some_iff]
    cases Uuid.parse? s.toList <;> simp
  | null | bool | int | real | arr | obj | date => simp [uuid, scalar]

/-! ## Records of one field -/

section Single

variable {α : Type} {d : Decoder α} {name label : String} {dialect : Dialect}

/-- The one field of a record that is that field's value. -/
def soleField (name : String) (d : Decoder α) : RecordField α := .needed name d fun v _ => v

theorem takeMember_of_ne {draft : Draft α} {member : String × Json} (h : member.1 ≠ name) :
    takeMember [soleField name d] dialect draft member = .ok draft := by
  have hne : (name == member.1) = false := by simpa using Ne.symm h
  simp [takeMember, soleField, RecordField.needed, hne]

theorem takeMember_of_seen {draft : Draft α} {v : Json} (h : name ∈ draft.2) :
    takeMember [soleField name d] dialect draft (name, v) = .error (.duplicateField name) := by
  simp [takeMember, soleField, RecordField.needed, h]

theorem takeMember_of_unseen {a : α} {v : Json} :
    takeMember [soleField name d] dialect (a, []) (name, v) =
      (d.ofTree dialect v).map fun b => (b, [name]) := by
  simp only [takeMember, soleField, RecordField.needed, List.find?_cons, beq_self_eq_true, map]
  cases d.ofTree dialect v <;> rfl

/-- Once the field has been seen, no other member may have its name. -/
theorem foldlM_takeMember_of_seen {draft draft' : Draft α} (h : name ∈ draft.2)
    (members : List (String × Json)) :
    members.foldlM (takeMember [soleField name d] dialect) draft = .ok draft' ↔
      (members.filter fun m => m.1 == name) = [] ∧ draft' = draft := by
  induction members with
  | nil => simp [pure, Except.pure, eq_comm]
  | cons member rest ih =>
    obtain ⟨key, v⟩ := member
    rw [List.foldlM_cons]
    by_cases hkey : key = name
    · subst hkey
      rw [takeMember_of_seen h]
      simp [bind, Except.bind]
    · rw [takeMember_of_ne hkey, List.filter_cons_of_neg (by simpa using hkey)]
      exact ih

/-- Before that, one member may. -/
theorem foldlM_takeMember {a : α} {draft' : Draft α} (members : List (String × Json)) :
    members.foldlM (takeMember [soleField name d] dialect) (a, []) = .ok draft' ↔
      (members.filter fun m => m.1 == name) = [] ∧ draft' = (a, []) ∨
      ∃ v b, (members.filter fun m => m.1 == name) = [(name, v)] ∧ d.ofTree dialect v = .ok b ∧
        draft' = (b, [name]) := by
  induction members with
  | nil => simp [pure, Except.pure, eq_comm]
  | cons member rest ih =>
    obtain ⟨key, v⟩ := member
    rw [List.foldlM_cons]
    by_cases hkey : key = name
    · subst hkey
      have hsole : ∀ v', (key, v) :: (rest.filter fun m => m.1 == key) = [(key, v')] ↔
          v = v' ∧ (rest.filter fun m => m.1 == key) = [] := by simp
      rw [takeMember_of_unseen, List.filter_cons_of_pos (by simp)]
      simp only [reduceCtorEq, false_and, false_or, hsole]
      cases hv : d.ofTree dialect v with
      | error e =>
        constructor
        · intro h
          cases h
        · rintro ⟨_, b, ⟨rfl, -⟩, hb, -⟩
          rw [hv] at hb
          cases hb
      | ok b =>
        -- this member is taken, and none of the rest may have its name
        refine (foldlM_takeMember_of_seen (List.mem_singleton.2 rfl) rest).trans ?_
        constructor
        · rintro ⟨hrest, rfl⟩
          exact ⟨v, b, ⟨rfl, hrest⟩, hv, rfl⟩
        · rintro ⟨_, b', ⟨rfl, hrest⟩, hb, rfl⟩
          rw [hv] at hb
          cases hb
          exact ⟨hrest, rfl⟩
    · rw [takeMember_of_ne hkey, List.filter_cons_of_neg (by simpa using hkey)]
      exact ih

/-- The members of an object make a record of one field if one of them has the field's name. -/
theorem recordOfMembers_eq_ok_iff {blank a : α} {members : List (String × Json)} :
    recordOfMembers blank [soleField name d] dialect members = .ok a ↔
      ∃ v, (members.filter fun m => m.1 == name) = [(name, v)] ∧ d.ofTree dialect v = .ok a := by
  unfold recordOfMembers
  constructor
  · intro h
    cases hfold : members.foldlM (takeMember [soleField name d] dialect) (blank, []) with
    | error e =>
      rw [hfold] at h
      cases h
    | ok draft =>
      rw [hfold] at h
      rcases (foldlM_takeMember members).1 hfold with ⟨-, rfl⟩ | ⟨v, b, hv, hb, rfl⟩
      · simp [checkPresent, soleField, RecordField.needed, bind, Except.bind] at h
      · have hba : b = a := by
          simpa [checkPresent, soleField, RecordField.needed, bind, Except.bind, pure,
            Except.pure] using h
        exact ⟨v, hv, hba ▸ hb⟩
  · rintro ⟨v, hv, ha⟩
    rw [(foldlM_takeMember members).2 (.inr ⟨v, a, hv, ha, rfl⟩)]
    simp [checkPresent, soleField, RecordField.needed, bind, Except.bind, pure, Except.pure]

/-- So does a list if it has one element. -/
theorem recordOfElements_eq_ok_iff {blank a : α} {items : List Json} :
    recordOfElements label 1 .json 0 [soleField name d] items blank = .ok a ↔
      ∃ v, items = [v] ∧ d.ofTree .json v = .ok a := by
  rcases items with - | ⟨v, - | ⟨v', rest⟩⟩
  · simp [recordOfElements, soleField, RecordField.needed]
  · cases hv : d.ofTree .json v <;>
      simp [recordOfElements, soleField, RecordField.needed, map, hv, bind, Except.bind, Except.map]
  · cases hv : d.ofTree .json v <;>
      simp [recordOfElements, soleField, RecordField.needed, map, hv, bind, Except.bind, Except.map]

/-- **A record of one field** is read from what has one value for it. -/
theorem record_eq_ok_iff {blank a : α} {data : Json} (hdate : name ≠ dateKey) :
    (record label blank [soleField name d]).decode data = .ok a ↔
      ∃ v, data.Sole name v ∧ d.ofTree .json v = .ok a := by
  unfold decode record
  cases data with
  | obj members =>
    simp only [recordOfMembers_eq_ok_iff]
    constructor
    · rintro ⟨v, hv, ha⟩
      exact ⟨v, .member hv, ha⟩
    · rintro ⟨v, ⟨hv⟩, ha⟩
      exact ⟨v, hv, ha⟩
  | arr items =>
    simp only [List.length_singleton, recordOfElements_eq_ok_iff]
    constructor
    · rintro ⟨v, rfl, ha⟩
      exact ⟨v, .element, ha⟩
    · rintro ⟨v, ⟨⟩, ha⟩
      exact ⟨v, rfl, ha⟩
  | date text =>
    -- a date has a member, but under the name of dates
    have hnone : ((dateMembers text).filter fun m => m.1 == name) = [] := by
      simpa [dateMembers] using Ne.symm hdate
    simp only [recordOfMembers_eq_ok_iff, hnone]
    constructor
    · rintro ⟨v, ⟨⟩, -⟩
    · rintro ⟨v, ⟨⟩, -⟩
  | null | bool | int | real | str =>
    constructor
    · rintro ⟨⟩
    · rintro ⟨v, ⟨⟩, -⟩

end Single

end Json.Decoder

/-! ## Requests -/

namespace AssetRequest

/-- **The request that a method and data make.** -/
inductive Asked : AssetMethod → Json → AssetRequest → Prop
  | get {data v : Json} {id : Uuid} : data.Sole "id" v → v.Spells id → Asked .get data (.get id)
  | getMetadata {data v : Json} {id : Uuid} : data.Sole "id" v → v.Spells id →
    Asked .getMetadata data (.getMetadata id)
  | getData {data v : Json} {id : Uuid} : data.Sole "id" v → v.Spells id →
    Asked .getData data (.getData id)
  | store {data : Json} {a : Asset} : Asset.decoder.decode data = .ok a →
    Asked .store data (.store a)
  | delete {data v : Json} {id : Uuid} : data.Sole "id" v → v.Spells id →
    Asked .delete data (.delete id)
  | existence {data : Json} {items : List Json} {ids : List Uuid} : data.Sole "ids" (.arr items) →
    List.Forall₂ Json.Spells items ids → Asked .existence data (.existence ids)

/-- Data name an asset by an identifier in any of its forms. -/
theorem byIdDecoder_eq_ok_iff {data : Json} {id : Uuid} :
    byIdDecoder.decode data = .ok id ↔ ∃ v, data.Sole "id" v ∧ v.Spells id := by
  have hread : byIdDecoder.decode data = .ok id ↔
      ∃ v, data.Sole "id" v ∧ Json.Decoder.uuid.ofTree .json v = .ok id :=
    Json.Decoder.record_eq_ok_iff (by decide)
  simpa only [Json.Decoder.uuid_ofTree_eq_ok_iff] using hread

theorem byIdsDecoder_eq_ok_iff {data : Json} {ids : List Uuid} :
    byIdsDecoder.decode data = .ok ids ↔
      ∃ items, data.Sole "ids" (.arr items) ∧ List.Forall₂ Json.Spells items ids := by
  have hread : byIdsDecoder.decode data = .ok ids ↔ ∃ v, data.Sole "ids" v ∧
      (Json.Decoder.list Json.Decoder.uuid).ofTree .json v = .ok ids :=
    Json.Decoder.record_eq_ok_iff (by decide)
  simp only [Json.Decoder.list_ofTree_eq_ok_iff, Json.Decoder.uuid_ofTree_eq_ok_iff] at hread
  refine hread.trans ?_
  constructor
  · rintro ⟨v, hv, items, rfl, hids⟩
    exact ⟨items, hv, hids⟩
  · rintro ⟨items, hv, hids⟩
    exact ⟨_, hv, items, rfl, hids⟩

/-- **Decoding a method's data answers the request they make**, and no other. -/
theorem decode_eq_ok_iff {method : AssetMethod} {data : Json} {request : AssetRequest} :
    decode method data = .ok request ↔ Asked method data request := by
  constructor
  · intro h
    cases method with
    | get | getMetadata | getData | delete =>
      obtain ⟨id, hid, rfl⟩ := Json.map_eq_ok_iff.1 h
      obtain ⟨v, hv, hs⟩ := byIdDecoder_eq_ok_iff.1 hid
      constructor <;> assumption
    | store =>
      obtain ⟨a, ha, rfl⟩ := Json.map_eq_ok_iff.1 h
      exact .store ha
    | existence =>
      obtain ⟨ids, hids, rfl⟩ := Json.map_eq_ok_iff.1 h
      obtain ⟨items, hv, hs⟩ := byIdsDecoder_eq_ok_iff.1 hids
      exact .existence hv hs
  · intro h
    cases h with
    | get hv hs | getMetadata hv hs | getData hv hs | delete hv hs =>
      simp only [decode, byIdDecoder_eq_ok_iff.2 ⟨_, hv, hs⟩, Except.map]
    | store ha => simp only [decode, ha, Except.map]
    | existence hv hs => simp only [decode, byIdsDecoder_eq_ok_iff.2 ⟨_, hv, hs⟩, Except.map]

end AssetRequest

end ModularHost

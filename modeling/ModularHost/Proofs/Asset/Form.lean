import ModularHost.Proofs.Asset.Reading
import ModularHost.Proofs.Json.Readable
/-!
# The objects that are assets

An asset is decoded from an object in two steps: the payload where it stands, and the metadata from
the members that are left at the end. Neither step shows. An object without repeated keys is an
asset if each of its members is what it has to be (`Asset.Accepted`), and it is the asset that they
describe (`Asset.Described`), in whatever order they stand and whatever stands between them
(`Asset.decode_by_members`).
-/


namespace ModularHost

open Json.Decoder

/-! ## What the members say -/

/-- Members describe metadata: what they leave out is empty or false. -/
structure AssetMetadata.Described (ms : List (String × Json)) (m : AssetMetadata) : Prop where
  id : ∃ s, ms.lookup "id" = some (.str s) ∧ m.id.Written s.toList
  name : ms.lookup "name" = some (.str m.name)
  description : (ms.lookup "description").getD (.str "") = .str m.description
  assetType : ms.lookup "asset_type" = some (.int m.assetType.toInt)
  isLocal : (ms.lookup "local").getD (.bool false) = .bool m.isLocal
  isTemporary : (ms.lookup "temporary").getD (.bool false) = .bool m.isTemporary
  creatorId : (ms.lookup "creator_id").getD (.str "") = .str m.creatorId

namespace Asset

/-- **Members describe an asset**: its metadata, and its payload byte by byte. -/
structure Described (ms : List (String × Json)) (a : Asset) : Prop where
  metadata : a.metadata.Described ms
  data : (ms.lookup "data").getD (.arr []) = dataJson a.data

/-- **What the members of an asset have to be**, one by one. -/
structure Accepted (ms : List (String × Json)) : Prop where
  id : ∃ s, ms.lookup "id" = some (.str s) ∧ ∃ u : Uuid, u.Written s.toList
  name : ∃ s, ms.lookup "name" = some (.str s)
  assetType : ∃ n, ms.lookup "asset_type" = some (.int n) ∧ -128 ≤ n ∧ n ≤ 127
  description : ∀ v, ms.lookup "description" = some v → ∃ s, v = .str s
  creatorId : ∀ v, ms.lookup "creator_id" = some v → ∃ s, v = .str s
  isLocal : ∀ v, ms.lookup "local" = some v → ∃ b, v = .bool b
  isTemporary : ∀ v, ms.lookup "temporary" = some v → ∃ b, v = .bool b
  data : ∀ v, ms.lookup "data" = some v →
    ∃ ns : List Int, v = .arr (ns.map .int) ∧ ∀ n ∈ ns, 0 ≤ n ∧ n ≤ 255

/-- The keys that mean something. -/
def keys : List String := AssetMetadata.fields.map (·.name) ++ ["data"]

end Asset

/-- Null, a number that is not read as a whole one, and a list with such an element. -/
inductive Json.Unfit : Json → Prop
  | null : Unfit .null
  | real (x : Number.Binary64) : Unfit (.real x)
  | element {items : List Json} {v : Json} : v ∈ items → Unfit v → Unfit (.arr items)

/-- A numeral with a point or an exponent is no whole number, whatever its value. -/
theorem Json.Numeral.unfit_of_point {n : Json.Numeral} {v : Json}
    (hpoint : n.fraction ≠ [] ∨ n.exponent ≠ none) (h : n.value = .ok v) : v.Unfit := by
  have hnot : ∀ p : Prop, ¬ (n.fraction = [] ∧ n.exponent = none ∧ p) := by
    rintro p ⟨hfraction, hexponent, -⟩
    exact hpoint.elim (· hfraction) (· hexponent)
  unfold Json.Numeral.value at h
  dsimp only at h
  rw [if_neg (hnot _), if_neg (hnot _)] at h
  split at h
  · split at h
    · cases h
      exact .real _
    · cases h
  · split at h
    · split at h
      · cases h
      · cases h
        exact .real _
    · split at h
      · cases h
        exact .real _
      · cases h

variable {ms ms' : List (String × Json)} {a : Asset} {m : AssetMetadata}

/-! ## The fields -/

theorem AssetMetadata.independent_fields : Independent AssetMetadata.fields where
  names := by decide
  apart := by simp [fields, RecordField.needed, RecordField.absentable, RecordField.apart_of_set]

theorem Asset.exact_byte : Asset.byte.Exact fun b => .int b.toNat := by
  intro dialect v b
  refine Json.map_eq_ok_iff.trans ?_
  simp only [integer_ofTree_eq_ok_iff]
  constructor
  · rintro ⟨n, ⟨rfl, hlow, hhigh⟩, rfl⟩
    have hsmall : n.toNat < 256 := by omega
    rw [UInt8.toNat_ofNat_of_lt' hsmall, Int.toNat_of_nonneg hlow]
  · rintro rfl
    have hlt := b.toNat_lt
    exact ⟨b.toNat, ⟨rfl, by omega, by omega⟩, by simp⟩

/-- **Metadata are taken from the members that describe them.** -/
theorem AssetMetadata.taken_iff_described (dialect : Json.Dialect) :
    Taken dialect ms fields blank m ↔ m.Described ms := by
  unfold fields
  constructor
  · intro h
    obtain ⟨w, id, hw, hid, h⟩ := taken_needed.1 h
    obtain ⟨v, name, hv, hname, h⟩ := taken_needed.1 h
    obtain ⟨description, hdescription, h⟩ := (taken_absentable "" (by rfl)).1 h
    obtain ⟨u, n, hu, hn, h⟩ := taken_needed.1 h
    obtain ⟨isLocal, hlocal, h⟩ := (taken_absentable false (by rfl)).1 h
    obtain ⟨isTemporary, htemporary, h⟩ := (taken_absentable false (by rfl)).1 h
    obtain ⟨creatorId, hcreator, rfl⟩ := (taken_absentable "" (by rfl)).1 h
    obtain ⟨s, rfl, hs⟩ := uuid_ofTree_eq_ok_iff.1 hid
    obtain ⟨rfl, hlow, hhigh⟩ := integer_ofTree_eq_ok_iff.1 hn
    have hint : (Int8.ofInt n).toInt = n := Int8.toInt_ofInt_of_le hlow (by omega)
    exact
      { id := ⟨s, hw, hs⟩
        name := (exact_text _ _ _ _).1 hname ▸ hv
        description := (exact_text _).given_iff.1 hdescription
        assetType := by rw [hu, hint]
        isLocal := exact_bool.given_iff.1 hlocal
        isTemporary := exact_bool.given_iff.1 htemporary
        creatorId := (exact_text _).given_iff.1 hcreator }
  · intro h
    obtain ⟨s, hw, hs⟩ := h.id
    have hid : uuid.ofTree dialect (.str s) = .ok m.id := uuid_ofTree_eq_ok_iff.2 ⟨s, rfl, hs⟩
    have hname : string.ofTree dialect (.str m.name) = .ok m.name := (exact_text _ _ _ _).2 rfl
    have htype : (integer (-128) 127 "i8").ofTree dialect (.int m.assetType.toInt) =
        .ok m.assetType.toInt :=
      integer_ofTree_eq_ok_iff.2 ⟨rfl, Int8.le_toInt _, Int.lt_add_one_iff.1 (Int8.toInt_lt _)⟩
    refine taken_needed.2 ⟨_, m.id, hw, hid, taken_needed.2 ⟨_, m.name, h.name, hname, ?_⟩⟩
    refine (taken_absentable "" (by rfl)).2 ⟨_, (exact_text _).given_iff.2 h.description, ?_⟩
    refine taken_needed.2 ⟨_, _, h.assetType, htype, ?_⟩
    refine (taken_absentable false (by rfl)).2 ⟨_, exact_bool.given_iff.2 h.isLocal, ?_⟩
    refine (taken_absentable false (by rfl)).2 ⟨_, exact_bool.given_iff.2 h.isTemporary, ?_⟩
    refine (taken_absentable "" (by rfl)).2 ⟨_, (exact_text _).given_iff.2 h.creatorId, ?_⟩
    have hint : Int8.ofInt m.assetType.toInt = m.assetType := Int8.ofInt_toInt _
    simp only [Taken, hint]

/-! ## Decoding -/

theorem AssetMetadata.described_congr
    (h : ∀ f ∈ fields, ms.lookup f.name = ms'.lookup f.name) :
    m.Described ms ↔ m.Described ms' := by
  rw [← taken_iff_described .json, ← taken_iff_described .json]
  exact taken_congr h

namespace Asset

/-- Only what the keys are looked up as counts. -/
theorem described_congr (h : ∀ key ∈ keys, ms.lookup key = ms'.lookup key) :
    Described ms a ↔ Described ms' a := by
  obtain ⟨hfields, hdata⟩ := List.forall_mem_append.1 h
  have hmetadata : a.metadata.Described ms ↔ a.metadata.Described ms' :=
    AssetMetadata.described_congr fun f hf => hfields _ (List.mem_map_of_mem hf)
  have hpayload : ms.lookup "data" = ms'.lookup "data" := hdata _ List.mem_cons_self
  constructor
  · rintro ⟨hm, hd⟩
    exact ⟨hmetadata.1 hm, hpayload ▸ hd⟩
  · rintro ⟨hm, hd⟩
    exact ⟨hmetadata.2 hm, hpayload ▸ hd⟩

/-! ## Decoding -/

/-- The payload, the one field that is read where it stands. -/
def payloadFields : List (RecordField Asset) :=
  [.absentable "data" (list byte) fun v a => { a with data := v }]

theorem independent_payloadFields : Independent payloadFields where
  names := List.nodup_singleton _
  apart := List.pairwise_singleton _ _

/-- **An object without repeated keys is decoded as the asset that its members describe.** -/
theorem decode_eq_ok_iff (hnodup : (ms.map (·.1)).Nodup) :
    decoder.decode (.obj ms) = .ok a ↔ Described ms a := by
  refine (openRecord_iff_taken independent_payloadFields hnodup).trans ?_
  dsimp only
  have hrest : ∀ m, recordOfMembers .blank AssetMetadata.fields .json
      (unclaimed payloadFields ms) = .ok m ↔ m.Described ms := by
    intro m
    rw [recordOfMembers_iff_taken AssetMetadata.independent_fields (nodup_keys_unclaimed hnodup),
      AssetMetadata.taken_iff_described]
    -- the payload is put aside, and no field of the metadata has its name
    have hother : ∀ f ∈ AssetMetadata.fields, f.name ≠ "data" := by decide
    exact AssetMetadata.described_congr fun f hf => lookup_unclaimed fun g hg => by
      obtain rfl := List.mem_singleton.1 hg
      exact (hother f hf).symm
  have hpayload : ∀ v, Given .json (list byte) [] (ms.lookup "data") v ↔
      (ms.lookup "data").getD (.arr []) = dataJson v := fun v => (exact_list exact_byte).given_iff
  constructor
  · rintro ⟨a₀, htaken, hfinish⟩
    obtain ⟨m, hm, rfl⟩ := Json.map_eq_ok_iff.1 hfinish
    obtain ⟨data, hdata, rfl⟩ := (taken_absentable [] (by rfl)).1 htaken
    exact ⟨(hrest m).1 hm, (hpayload data).1 hdata⟩
  · rintro ⟨hm, hdata⟩
    exact ⟨{ (default : Asset) with data := a.data },
      (taken_absentable [] (by rfl)).2 ⟨a.data, (hpayload a.data).2 hdata, rfl⟩,
      Json.map_eq_ok_iff.2 ⟨a.metadata, (hrest _).2 hm, rfl⟩⟩

/-- A member that may be absent is as it has to be if it, or its default, is. -/
theorem getD_iff {α : Type} (written : α → Json) (member : Option Json) (default : α) :
    (∃ v, member.getD (written default) = written v) ↔
      ∀ w, member = some w → ∃ v, w = written v := by
  cases member with
  | none => simp
  | some w => simp

/-- **What is accepted describes an asset**, and nothing else does. -/
theorem accepted_iff_exists_described : (∃ a, Described ms a) ↔ Accepted ms := by
  constructor
  · rintro ⟨a, hm, hdata⟩
    obtain ⟨s, hs, hid⟩ := hm.id
    exact
      { id := ⟨s, hs, _, hid⟩
        name := ⟨_, hm.name⟩
        assetType := ⟨_, hm.assetType, Int8.le_toInt _, Int.lt_add_one_iff.1 (Int8.toInt_lt _)⟩
        description := (getD_iff _ _ _).1 ⟨_, hm.description⟩
        creatorId := (getD_iff _ _ _).1 ⟨_, hm.creatorId⟩
        isLocal := (getD_iff _ _ _).1 ⟨_, hm.isLocal⟩
        isTemporary := (getD_iff _ _ _).1 ⟨_, hm.isTemporary⟩
        data := by
          intro v hv
          rw [hv, Option.getD_some] at hdata
          refine ⟨a.data.map fun b => b.toNat, by rw [hdata, dataJson, List.map_map]; rfl, ?_⟩
          intro n hn
          obtain ⟨b, -, rfl⟩ := List.mem_map.1 hn
          have hlt := b.toNat_lt
          omega }
  · intro h
    obtain ⟨s, hs, id, hid⟩ := h.id
    obtain ⟨name, hname⟩ := h.name
    obtain ⟨n, hn, hlow, hhigh⟩ := h.assetType
    obtain ⟨description, hdescription⟩ := (getD_iff Json.str _ "").2 h.description
    obtain ⟨creatorId, hcreator⟩ := (getD_iff Json.str _ "").2 h.creatorId
    obtain ⟨isLocal, hlocal⟩ := (getD_iff Json.bool _ false).2 h.isLocal
    obtain ⟨isTemporary, htemporary⟩ := (getD_iff Json.bool _ false).2 h.isTemporary
    obtain ⟨data, hdata⟩ := (getD_iff dataJson (ms.lookup "data") []).2 <| by
      intro w hw
      obtain ⟨ns, rfl, hns⟩ := h.data w hw
      refine ⟨ns.map fun n => .ofNat n.toNat, ?_⟩
      rw [dataJson, List.map_map]
      refine congrArg Json.arr (List.map_congr_left fun n hn => ?_)
      obtain ⟨hnonneg, hsmall⟩ := hns n hn
      have hlt : n.toNat < 256 := by omega
      simp [UInt8.toNat_ofNat_of_lt' hlt, Int.toNat_of_nonneg hnonneg]
    have hint : (Int8.ofInt n).toInt = n := Int8.toInt_ofInt_of_le hlow (by omega)
    exact ⟨⟨⟨id, name, description, .ofInt n, isLocal, isTemporary, creatorId⟩, data⟩,
      ⟨⟨s, hs, hid⟩, hname, hdescription, by rw [hn, hint], hlocal, htemporary, hcreator⟩, hdata⟩

/-- Nothing unfit is accepted under a key that means something. -/
theorem Accepted.not_unfit (h : Accepted ms) {key : String} (hkey : key ∈ keys) {v : Json}
    (hv : ms.lookup key = some v) : ¬ v.Unfit := by
  have hstring : (∃ s, v = .str s) → ¬ v.Unfit := by
    rintro ⟨s, rfl⟩ ⟨⟩
  have hbool : (∃ b, v = .bool b) → ¬ v.Unfit := by
    rintro ⟨b, rfl⟩ ⟨⟩
  simp only [keys, AssetMetadata.fields, RecordField.needed, RecordField.absentable, List.map_cons,
    List.map_nil, List.cons_append, List.nil_append, List.mem_cons, List.not_mem_nil,
    or_false] at hkey
  rcases hkey with rfl | rfl | rfl | rfl | rfl | rfl | rfl | rfl
  · obtain ⟨s, hs, -⟩ := h.id
    exact hstring ⟨s, Option.some.inj (hv.symm.trans hs)⟩
  · obtain ⟨s, hs⟩ := h.name
    exact hstring ⟨s, Option.some.inj (hv.symm.trans hs)⟩
  · exact hstring (h.description v hv)
  · obtain ⟨n, hn, -⟩ := h.assetType
    obtain rfl := Option.some.inj (hv.symm.trans hn)
    rintro ⟨⟩
  · exact hbool (h.isLocal v hv)
  · exact hbool (h.isTemporary v hv)
  · exact hstring (h.creatorId v hv)
  · obtain ⟨ns, rfl, -⟩ := h.data v hv
    intro hunfit
    cases hunfit with
    | element hw hunfit =>
      obtain ⟨n, -, rfl⟩ := List.mem_map.1 hw
      cases hunfit

/-! ## Texts -/

theorem agrees_decoder : decoder.Agrees :=
  agrees_openRecord (List.forall_mem_singleton.2
    (agrees_map (agrees_list (agrees_map (agrees_integer _ _ _) _)) _))

theorem reads_decoder : decoder.Reads :=
  reads_openRecord (List.forall_mem_singleton.2
    (reads_map (reads_list (reads_map (reads_scalar _ _) _)) _))

theorem decodeText_of_standsFor {s : String} {v : Json} (h : Json.StandsFor s v) :
    decoder.decodeText s = .ok a ↔ decoder.decode v = .ok a := by
  rw [decodeText_eq_ok_iff agrees_decoder reads_decoder]
  constructor
  · rintro ⟨w, hw, ha⟩
    exact h.unique hw ▸ ha
  · intro ha
    exact ⟨v, h, ha⟩

/-- A text that is decoded as an asset stands for an object. -/
theorem object_of_decodeText {s : String} (h : decoder.decodeText s = .ok a) :
    ∃ ms, Json.StandsFor s (.obj ms) := by
  obtain ⟨v, ⟨rest, hread, hend⟩, ha⟩ := (decodeText_eq_ok_iff agrees_decoder reads_decoder).1 h
  cases v with
  | obj ms => exact ⟨ms, rest, hread, hend⟩
  | null | bool | int | real | str | arr => cases ha
  | date text =>
    -- dates come from documents of another kind only
    rcases Json.readTree_cases hread with ⟨-, hv⟩ | ⟨_, _, _, -, -, hv, -⟩ | ⟨_, _, _, -, -, hv, -⟩
    · cases hv
    · cases hv
    · cases hv

/-! ## Objects in any order -/

/-- **An object without repeated keys is decoded as an asset by its members alone.** It is accepted
if each member is what it has to be, and is then the asset that the members describe, be it given
as a value or as a text that stands for it; a text that stands for no object is not accepted. Two
objects that have the same members under the keys of an asset, in any order, come to the same,
whatever other members they have. Nothing that has a null or a number with a point or an exponent
under such a key is accepted. -/
theorem decode_by_members (hnodup : (ms.map (·.1)).Nodup) :
    ((∃ a, decoder.decode (.obj ms) = .ok a) ↔ Accepted ms) ∧
    (∀ a, decoder.decode (.obj ms) = .ok a ↔ Described ms a) ∧
    (∀ s, Json.StandsFor s (.obj ms) →
      ((∃ a, decoder.decodeText s = .ok a) ↔ Accepted ms) ∧
      ∀ a, decoder.decodeText s = .ok a ↔ Described ms a) ∧
    (∀ s a, decoder.decodeText s = .ok a → ∃ ms, Json.StandsFor s (.obj ms)) ∧
    (∀ ms' : List (String × Json), (ms'.map (·.1)).Nodup →
      (ms'.filter fun m => decide (m.1 ∈ keys)).Perm (ms.filter fun m => decide (m.1 ∈ keys)) →
      (∀ a, decoder.decode (.obj ms') = .ok a ↔ decoder.decode (.obj ms) = .ok a) ∧
      ∀ s s', Json.StandsFor s (.obj ms) → Json.StandsFor s' (.obj ms') →
        ∀ a, decoder.decodeText s' = .ok a ↔ decoder.decodeText s = .ok a) ∧
    (∀ key ∈ keys, ∀ v, ms.lookup key = some v → v.Unfit →
      ∀ a, decoder.decode (.obj ms) ≠ .ok a) ∧
    ∀ (n : Json.Numeral) (v : Json), n.fraction ≠ [] ∨ n.exponent ≠ none → n.value = .ok v →
      v.Unfit := by
  have hdescribed : ∀ a, decoder.decode (.obj ms) = .ok a ↔ Described ms a :=
    fun a => decode_eq_ok_iff hnodup
  have haccepted : (∃ a, decoder.decode (.obj ms) = .ok a) ↔ Accepted ms := by
    simp only [hdescribed, accepted_iff_exists_described]
  refine ⟨haccepted, hdescribed, fun s hs => ?_, fun s a h => object_of_decodeText h,
    fun ms' hnodup' hperm => ?_, fun key hkey v hv hunfit a ha => ?_,
    fun n v hpoint hv => n.unfit_of_point hpoint hv⟩
  · simp only [decodeText_of_standsFor hs]
    exact ⟨haccepted, hdescribed⟩
  · -- a look-up under such a key is one among the members that were compared
    have hlookup : ∀ key ∈ keys, ms'.lookup key = ms.lookup key := by
      intro key hkey
      have hknown : decide (key ∈ keys) = true := by simpa using hkey
      rw [← lookup_filter ms' (p := fun key => decide (key ∈ keys)) hknown,
        ← lookup_filter ms (p := fun key => decide (key ∈ keys)) hknown]
      exact lookup_perm (nodup_keys_filter hnodup' _) hperm key
    have hsame : ∀ a, decoder.decode (.obj ms') = .ok a ↔ decoder.decode (.obj ms) = .ok a :=
      fun a => (decode_eq_ok_iff hnodup').trans
        ((described_congr hlookup).trans (hdescribed a).symm)
    refine ⟨hsame, fun s s' hs hs' a => ?_⟩
    rw [decodeText_of_standsFor hs, decodeText_of_standsFor hs']
    exact hsame a
  · exact (haccepted.1 ⟨a, ha⟩).not_unfit hkey hv hunfit

/-- A stone in braces with members that are no asset's, the least kind there is and two bytes. -/
def looseStone : List (String × Json) :=
  [("weight", .arr [.null, .obj [("unit", .str "kg")]]), ("asset_type", .int (-128)),
   ("data", .arr [.int 0, .int 255]), ("name", .str "stone"),
   ("id", .str "\x7bFFFFFFFF-FFFF-FFFF-FFFF-FFFFFFFFFFFF\x7d"), ("local", .bool true)]

def stone : Asset :=
  ⟨⟨⟨List.replicate 32 (Fin.last 15), rfl⟩, "stone", "", .minValue, true, false, ""⟩, [0, 255]⟩

theorem decode_by_members_looseStone :
    (looseStone.map (·.1)).Nodup ∧ Accepted looseStone ∧
    decoder.decode (.obj looseStone) = .ok stone ∧
    decoder.decodeText (Json.obj looseStone).text = .ok stone ∧
    decoder.decode (.obj looseStone.reverse) = .ok stone := by
  have hnodup : (looseStone.map (·.1)).Nodup := by decide
  have hid : stone.metadata.id.Written "\x7bFFFFFFFF-FFFF-FFFF-FFFF-FFFFFFFFFFFF\x7d".toList :=
    Uuid.parse?_eq_some_iff.1 (by decide)
  have hstone : Described looseStone stone :=
    { metadata :=
        { id := ⟨_, rfl, hid⟩, name := rfl, description := rfl, assetType := rfl, isLocal := rfl
          isTemporary := rfl, creatorId := rfl }
      data := rfl }
  have hplain : (Json.obj looseStone).Plain := by
    simp [looseStone, Json.Plain, Json.PlainItems, Json.PlainMembers]
  have htext : Json.StandsFor (Json.obj looseStone).text (.obj looseStone) :=
    Json.standsFor_text hplain (by decide)
  obtain ⟨haccepted, hdescribed, htexts, -, hperm, -, -⟩ := decode_by_members hnodup
  have hreversed := (hperm looseStone.reverse (by decide)
    ((List.reverse_perm looseStone).filter _)).1 stone
  exact ⟨hnodup, haccepted.1 ⟨stone, (hdescribed stone).2 hstone⟩, (hdescribed stone).2 hstone,
    ((htexts _ htext).2 stone).2 hstone, hreversed.2 ((hdescribed stone).2 hstone)⟩

end Asset

end ModularHost

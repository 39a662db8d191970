import ModularHost.Proofs.Asset.Form
import ModularHost.Proofs.Asset.Run
import ModularHost.Proofs.Connector.Request
/-!
# Assets written and read back

The JSON form of an asset is decoded as the asset, in whatever order its members are written, from
the value and from its text (`Asset.decode_of_perm`). So what a memory service answers to a look-up
can be stored again: the service answers with the same identifier, and holds what it has held before
(`stored_again`).
-/


namespace ModularHost

/-! ## The JSON form -/

namespace Asset

variable {a : Asset} {ms : List (String × Json)}

/-- The members of an asset, field by field. -/
def members (a : Asset) : List (String × Json) :=
  a.metadata.members ++ [("data", dataJson a.data)]

theorem nodup_members (a : Asset) : (a.members.map (·.1)).Nodup := by
  change List.Nodup ["id", "name", "description", "asset_type", "local", "temporary", "creator_id",
    "data"]
  decide

theorem described_members (a : Asset) : Described a.members a where
  metadata :=
    { id := ⟨a.metadata.id.text, rfl, by
        rw [Uuid.text, String.toList_ofList]
        exact a.metadata.id.written_print⟩
      name := rfl
      description := rfl
      assetType := rfl
      isLocal := rfl
      isTemporary := rfl
      creatorId := rfl }
  data := rfl

/-- The members of an asset describe it in any order. -/
theorem described_of_perm (h : ms.Perm a.members) : Described ms a :=
  (described_congr fun key _ => lookup_perm ((h.map _).nodup_iff.2 a.nodup_members) h key).2
    a.described_members

theorem plain_members (a : Asset) : ∀ m ∈ a.members, m.2.Plain ∧ m.2.nesting ≤ 1 := by
  have hdata : (dataJson a.data).Plain ∧ (dataJson a.data).nesting ≤ 1 := by
    constructor
    · refine Json.plainItems_iff.2 fun v hv => ?_
      obtain ⟨b, -, rfl⟩ := List.mem_map.1 hv
      have hlt := b.toNat_lt
      simp only [Json.Plain]
      omega
    · refine Nat.succ_le_succ (Json.nestingItems_le_iff.2 fun v hv => ?_)
      obtain ⟨b, -, rfl⟩ := List.mem_map.1 hv
      exact Nat.le_refl 0
  have hlow := a.metadata.assetType.le_toInt
  have hhigh := a.metadata.assetType.toInt_lt
  simp [members, AssetMetadata.members, hdata, Json.Plain, Json.nesting]
  omega

/-- **An asset is read back from its JSON form**, in whatever order its members are written. -/
theorem decode_of_perm (h : ms.Perm a.members) :
    decoder.decode (.obj ms) = .ok a ∧ decoder.decodeText (Json.obj ms).text = .ok a := by
  have hvalue : decoder.decode (.obj ms) = .ok a :=
    (decode_eq_ok_iff ((h.map _).nodup_iff.2 a.nodup_members)).2 (described_of_perm h)
  have hmembers : ∀ m ∈ ms, m.2.Plain ∧ m.2.nesting ≤ 1 :=
    fun m hm => a.plain_members m (h.mem_iff.1 hm)
  have hplain : (Json.obj ms).Plain := Json.plainMembers_iff.2 fun m hm => (hmembers m hm).1
  have hdepth : (Json.obj ms).nesting ≤ 2 :=
    Nat.succ_le_succ (Json.nestingMembers_le_iff.2 fun m hm => (hmembers m hm).2)
  exact ⟨hvalue, (decodeText_of_standsFor
    (Json.standsFor_text hplain (Nat.le_trans hdepth (by decide)))).2 hvalue⟩

theorem decode_toJson (a : Asset) :
    decoder.decode a.toJson = .ok a ∧ decoder.decodeText a.toJson.text = .ok a :=
  decode_of_perm (sortMembers_perm a.nodup_members)

/-- It has each key once, and the keys are in order. -/
theorem normal_toJson (a : Asset) : a.toJson.normal = a.toJson := by
  have hdata : (dataJson a.data).normal = dataJson a.data := by
    simp only [dataJson, Json.normal, Json.arr.injEq]
    induction a.data with
    | nil => rfl
    | cons b rest ih => simp only [List.map_cons, Json.normalItems, Json.normal, ih]
  have hmembers : Json.normalMembers (sortMembers a.members) = sortMembers a.members := by
    have htoJson : sortMembers a.members = _ := Json.obj.inj a.toJson_eq
    simp only [htoJson, Json.normalMembers, Json.normal, hdata]
  have hsorted := (keyOrdered_sortMembers a.members).sortMembers_eq (.refl _)
  change Json.obj (sortMembers (Json.normalMembers (sortMembers a.members))) = _
  rw [hmembers, hsorted]
  rfl

theorem plain_toJson (a : Asset) : a.toJson.Plain ∧ a.toJson.nesting ≤ 2 := by
  have hmembers : ∀ m ∈ sortMembers a.members, m.2.Plain ∧ m.2.nesting ≤ 1 :=
    fun m hm => a.plain_members m ((sortMembers_perm a.nodup_members).mem_iff.1 hm)
  exact ⟨Json.plainMembers_iff.2 fun m hm => (hmembers m hm).1,
    Nat.succ_le_succ (Json.nestingMembers_le_iff.2 fun m hm => (hmembers m hm).2)⟩

end Asset

/-- A request whose data can be read back is read back from its text, in either order. -/
theorem ServiceRequest.decodeText_of_reads {r : ServiceRequest} (hdata : r.data.normal = r.data)
    (hplain : r.data.Plain) (hdepth : r.data.nesting ≤ 126) :
    decoder.decodeText r.written.text = .ok r ∧ decoder.decodeText r.toJson.text = .ok r :=
  ⟨(Json.Decoder.decodeText_text agrees_decoder (plain_written hplain)
      (nesting_written_le hdepth)).2 (decode_written hdata),
    (Json.Decoder.decodeText_text agrees_decoder (plain_toJson hplain)
      (nesting_toJson_le hdepth)).2 (decode_toJson hdata)⟩

/-! ## Memory services -/

namespace Vault

variable {supply : IdSupply} {v w : Vault} {serial : Nat}

/-- The services of two vaults hold the same, and as many identifiers have been given out. -/
def Alike (v w : Vault) : Prop :=
  (∀ serial, v.contents serial = w.contents serial) ∧ v.issued = w.issued

theorem Alike.trans {u : Vault} (h : u.Alike v) (h' : v.Alike w) : u.Alike w :=
  ⟨fun serial => (h.1 serial).trans (h'.1 serial), h.2.trans h'.2⟩

theorem contents_setShelf_of_ne {other : Nat} (h : other ≠ serial) (s : AssetShelf) :
    (v.setShelf other s).contents serial = v.contents serial := by
  have hne : (serial == other) = false := by simpa using Ne.symm h
  have hrest : (v.shelves.filter fun e => decide (e.1 ≠ other)).lookup serial =
      v.shelves.lookup serial :=
    lookup_filter v.shelves (p := fun n => decide (n ≠ other)) (by simpa using Ne.symm h)
  simp only [contents, shelf, setShelf, List.lookup_cons, hne, hrest]

/-- What a service does leaves the other services alone. -/
theorem contents_perform_of_ne {other : Nat} (h : other ≠ serial) (service : AssetService)
    (request : AssetRequest) :
    (service.perform supply other v request).2.contents serial = v.contents serial := by
  cases service with
  | memory =>
    rcases hout : (v.shelf other).perform (supply v.issued) request with ⟨reply, shelf, given⟩
    simp only [AssetService.perform, hout]
    cases given <;> exact contents_setShelf_of_ne h shelf
  | null => rfl
  | refusing error => rfl

/-- **What can come of a new service**: whatever is asked of it or of other services, one request
after the other. -/
inductive Reachable (supply : IdSupply) (serial : Nat) : Vault → Prop
  | new {v : Vault} : v.shelf serial = .empty → Reachable supply serial v
  | perform {v : Vault} (service : AssetService) (other : Nat) (request : AssetRequest) :
    Reachable supply serial v →
    Reachable supply serial (service.perform supply other v request).2

/-- Every asset is under its own identifier. -/
theorem Reachable.selfNamed (h : Reachable supply serial v) (hsupply : ∀ n, supply n ≠ .nil) :
    (v.contents serial).SelfNamed := by
  induction h with
  | @new v hempty =>
    have hnone : v.contents serial = ∅ := congrArg AssetShelf.contents hempty
    rw [hnone]
    exact AssetMap.selfNamed_empty
  | @perform v service other request _ ih =>
    by_cases hother : other = serial
    · subst hother
      cases service with
      | memory =>
        obtain ⟨reply, v', hperform, hanswer, -⟩ := perform_memory supply other v request
        have hcontents : v'.contents other =
            ((v.contents other).answer (supply v.issued) request).2 := congrArg Prod.snd hanswer
        rw [hperform, hcontents]
        exact ih.answer (hsupply _) request
      | null => exact ih
      | refusing error => exact ih
    · rw [contents_perform_of_ne hother]
      exact ih

end Vault

/-! ## Through a dispatcher -/

/-- A request is answered, be it handed over as it is or as a text that is read as it. -/
def Dispatcher.Answers {H σ : Type} (d : Dispatcher H) (handle : Handling H σ) (s : σ)
    (r : ServiceRequest) (answer : Json) (s' : σ) : Prop :=
  d.dispatchRequest handle s r = (.ok answer, s') ∧
    ∀ text, ServiceRequest.decoder.decodeText text = .ok r →
      d.dispatch handle s text = (.ok answer, s')

/-- The route of a memory service, open to some. -/
def guardedRoute (serial : Nat) (auth : AuthMode) : Route Handler :=
  ⟨.served ⟨serial, .assets .memory⟩, auth⟩

section Route

variable {supply : IdSupply} {d : Dispatcher Handler} {serial : Nat} {auth : AuthMode} {v : Vault}
  {r : ServiceRequest} {request : AssetRequest}

/-- What is asked of a memory service by who may ask it is answered as the map answers it, and
touches nothing else. -/
theorem dispatchRequest_guarded (supply : IdSupply) (v : Vault)
    (hroute : d.route? r.route = some (guardedRoute serial auth))
    (hadmits : (guardedRoute serial auth).admits r.credentials = true)
    (hof : AssetRequest.ofCall r.method r.data = .ok request) :
    ∃ v', d.Answers (Handler.handle supply) v r
        ((v.contents serial).answer (supply v.issued) request).1 v' ∧
      v'.contents serial = ((v.contents serial).answer (supply v.issued) request).2 ∧
      (∀ other, serial ≠ other → v'.contents other = v.contents other) ∧
      v'.issued = v.issued + request.unnamed.toNat := by
  obtain ⟨reply, v', hperform, hanswer, hissued⟩ := perform_memory supply serial v request
  have hreply : reply.toJson = ((v.contents serial).answer (supply v.issued) request).1 :=
    congrArg Prod.fst hanswer
  have hcontents : v'.contents serial =
      ((v.contents serial).answer (supply v.issued) request).2 := congrArg Prod.snd hanswer
  have hcall : AssetService.memory.handle supply serial v r.method r.data =
      (.ok reply.toJson, v') := by
    rcases handle_memory supply serial v r.method r.data with ⟨e, he, -⟩ | ⟨request', hof', hout⟩
    · rw [hof] at he
      cases he
    · rw [hof] at hof'
      cases hof'
      rw [hout, hperform]
      rfl
  have hdispatch : d.dispatchRequest (Handler.handle supply) v r = (.ok reply.toJson, v') := by
    simp only [Dispatcher.dispatchRequest, hroute, hadmits, if_true]
    change ((AssetService.memory.handle supply serial v r.method r.data).1.mapError _,
      (AssetService.memory.handle supply serial v r.method r.data).2) = _
    rw [hcall]
    rfl
  rw [← hreply]
  refine ⟨v', ⟨hdispatch, fun text htext => ?_⟩, hcontents, fun other hother => ?_, hissued⟩
  · rw [Dispatcher.dispatch_of_decodeText htext, hdispatch]
  · have hcalm : (AssetService.memory.perform supply serial v request).2.contents other =
        v.contents other := Vault.contents_perform_of_ne hother .memory request
    rwa [hperform] at hcalm

/-- What changes nothing in the map, and needs no new identifier, leaves everything as it is. -/
theorem dispatchRequest_unchanged (supply : IdSupply) (v : Vault)
    (hroute : d.route? r.route = some (guardedRoute serial auth))
    (hadmits : (guardedRoute serial auth).admits r.credentials = true)
    (hof : AssetRequest.ofCall r.method r.data = .ok request)
    (hsame : ((v.contents serial).answer (supply v.issued) request).2 = v.contents serial)
    (hnamed : request.unnamed = false) :
    ∃ v', d.Answers (Handler.handle supply) v r
        ((v.contents serial).answer (supply v.issued) request).1 v' ∧ v'.Alike v := by
  obtain ⟨v', hanswers, hcontents, hothers, hissued⟩ :=
    dispatchRequest_guarded supply v hroute hadmits hof
  refine ⟨v', hanswers, fun other => ?_, by rw [hissued, hnamed]; rfl⟩
  by_cases hother : serial = other
  · subst hother
    rw [hcontents, hsame]
  · exact hothers other hother

variable (supply) {route : String} {credentials : Option Credentials} {id : Uuid} {a : Asset}
  (hroute : d.route? route = some (guardedRoute serial auth))
  (hadmits : (guardedRoute serial auth).admits credentials = true)
include hroute hadmits

/-- A look-up is answered with the asset. -/
theorem answers_get {data w : Json} (hlookup : (v.contents serial).lookup id = some a)
    (hdata : data.Sole "id" w) (hw : w.Spells id) :
    ∃ v', d.Answers (Handler.handle supply) v ⟨route, "get", data, credentials⟩ a.toJson v' ∧
      v'.Alike v := by
  have hget : AssetRequest.ofCall "get" data = .ok (.get id) :=
    AssetRequest.ofCall_eq_ok_iff.2 ⟨.get, rfl, .get hdata hw⟩
  have hanswer : ((v.contents serial).answer (supply v.issued) (.get id)).1 = a.toJson := by
    simp only [AssetMap.answer, hlookup, Option.map_some, Option.getD_some]
  rw [← hanswer]
  exact dispatchRequest_unchanged supply v (r := ⟨route, "get", data, credentials⟩) hroute hadmits
    hget rfl rfl

/-- What is held already can be stored once more. -/
theorem answers_store (hlookup : (v.contents serial).lookup a.metadata.id = some a)
    (hnamed : a.metadata.id ≠ .nil) :
    ∃ v', d.Answers (Handler.handle supply) v ⟨route, "store", a.toJson, credentials⟩
        (.obj [("id", .str a.metadata.id.text)]) v' ∧ v'.Alike v := by
  have hstore : AssetRequest.ofCall "store" a.toJson = .ok (.store a) :=
    AssetRequest.ofCall_eq_ok_iff.2 ⟨.store, rfl, .store a.decode_toJson.1⟩
  have hidentified : a.identified (supply v.issued) = a := if_neg hnamed
  -- the map has this very asset under this very identifier
  have hput : (v.contents serial).insert a.metadata.id a = v.contents serial := by
    refine Finmap.ext_lookup fun id => ?_
    by_cases hid : id = a.metadata.id
    · rw [hid, Finmap.lookup_insert, hlookup]
    · rw [Finmap.lookup_insert_of_ne _ hid]
  have hanswer : (v.contents serial).answer (supply v.issued) (.store a) =
      (.obj [("id", .str a.metadata.id.text)], v.contents serial) := by
    simp only [AssetMap.answer, hidentified, hput]
  obtain ⟨v', hanswers, halike⟩ := dispatchRequest_unchanged supply v
    (r := ⟨route, "store", a.toJson, credentials⟩) hroute hadmits hstore
    (congrArg Prod.snd hanswer) (decide_eq_false hnamed)
  rw [hanswer] at hanswers
  exact ⟨v', hanswers, halike⟩

end Route

/-- **What has been stored can be looked up and stored again.** An asset is read back from its JSON
form, in whatever order its members are written, from the value and from its text. Once a memory
service has come to hold an asset, through whatever requests, a look-up of its identifier in any
form is answered with the asset's JSON; and storing just that JSON is answered with the same
identifier, and leaves what every service holds. -/
theorem stored_again (supply : IdSupply) (d : Dispatcher Handler) (route : String) (serial : Nat)
    (auth : AuthMode) (credentials : Option Credentials) (hsupply : ∀ n, supply n ≠ .nil)
    (hroute : d.route? route = some (guardedRoute serial auth))
    (hadmits : (guardedRoute serial auth).admits credentials = true) :
    (∀ a : Asset, Asset.decoder.decode a.toJson = .ok a ∧
      Asset.decoder.decodeText a.toJson.text = .ok a ∧
      ∀ ms : List (String × Json), ms.Perm a.members →
        Asset.decoder.decode (.obj ms) = .ok a ∧
        Asset.decoder.decodeText (Json.obj ms).text = .ok a) ∧
    ∀ v : Vault, v.Reachable supply serial →
      ∀ id a, (v.shelf serial).find? id = some a →
      ∀ data w : Json, data.Sole "id" w → w.Spells id →
      ∃ v₁ v₂ : Vault,
        d.Answers (Handler.handle supply) v ⟨route, "get", data, credentials⟩ a.toJson v₁ ∧
        v₁.Alike v ∧
        d.Answers (Handler.handle supply) v₁ ⟨route, "store", a.toJson, credentials⟩
          (.obj [("id", .str id.text)]) v₂ ∧
        v₂.Alike v ∧
        ServiceRequest.decoder.decodeText
            (ServiceRequest.mk route "store" a.toJson credentials).written.text =
          .ok ⟨route, "store", a.toJson, credentials⟩ ∧
        ServiceRequest.decoder.decodeText
            (ServiceRequest.mk route "store" a.toJson credentials).toJson.text =
          .ok ⟨route, "store", a.toJson, credentials⟩ := by
  refine ⟨fun a => ⟨a.decode_toJson.1, a.decode_toJson.2, fun ms h => Asset.decode_of_perm h⟩,
    fun v hv id a hfind data w hdata hw => ?_⟩
  have hnamed : (v.contents serial).SelfNamed := hv.selfNamed hsupply
  have hlookup : (v.contents serial).lookup id = some a := by
    rw [Vault.contents, AssetShelf.lookup_contents, hfind]
  obtain rfl : a.metadata.id = id := hnamed.own id a hlookup
  have hnamed : a.metadata.id ≠ .nil := fun hnil => by
    rw [hnil, hnamed.named] at hlookup
    cases hlookup
  -- the look-up changes nothing, so the asset is there when it is stored once more
  obtain ⟨v₁, hgot, halike₁⟩ := answers_get supply hroute hadmits hlookup hdata hw
  have hlookup₁ : (v₁.contents serial).lookup a.metadata.id = some a := by rwa [halike₁.1]
  obtain ⟨v₂, hstored, halike₂⟩ := answers_store supply hroute hadmits hlookup₁ hnamed
  obtain ⟨hwritten, hsorted⟩ := ServiceRequest.decodeText_of_reads
    (r := ⟨route, "store", a.toJson, credentials⟩) a.normal_toJson a.plain_toJson.1
    (Nat.le_trans a.plain_toJson.2 (by decide))
  exact ⟨v₁, v₂, hgot, halike₁, hstored, halike₂.trans halike₁, hwritten, hsorted⟩

/-- A route for one user. -/
def stoneDispatcher : Dispatcher Handler :=
  ⟨[("assets", guardedRoute 0 (.basic "ada" "pw"))]⟩

/-- Every new identifier is that of the stone. -/
def stoneSupply : IdSupply := fun _ => Asset.stone.metadata.id

/-- What comes of a new service that is given the stone without its identifier. -/
def stoneVault : Vault :=
  (AssetService.memory.perform stoneSupply 0 .empty
    (.store { Asset.stone with metadata := { Asset.stone.metadata with id := .nil } })).2

theorem stored_again_stone :
    (∀ n, stoneSupply n ≠ .nil) ∧
    stoneDispatcher.route? "assets" = some (guardedRoute 0 (.basic "ada" "pw")) ∧
    (guardedRoute 0 (.basic "ada" "pw")).admits (some ⟨"ada", "pw"⟩) = true ∧
    stoneVault.Reachable stoneSupply 0 ∧
    (stoneVault.shelf 0).find? Asset.stone.metadata.id = some Asset.stone ∧
    ∃ v₁ v₂ : Vault,
      stoneDispatcher.dispatchRequest (Handler.handle stoneSupply) stoneVault
          ⟨"assets", "get", .arr [.str "FFFFFFFFFFFFFFFFFFFFFFFFFFFFFFFF"], some ⟨"ada", "pw"⟩⟩ =
        (.ok Asset.stone.toJson, v₁) ∧
      stoneDispatcher.dispatch (Handler.handle stoneSupply) v₁
          (ServiceRequest.mk "assets" "store" Asset.stone.toJson
            (some ⟨"ada", "pw"⟩)).toJson.text =
        (.ok (.obj [("id", .str Asset.stone.metadata.id.text)]), v₂) ∧
      v₂.Alike stoneVault := by
  have hstone : Asset.stone.metadata.id ≠ .nil := by decide
  have hsupply : ∀ n, stoneSupply n ≠ .nil := fun _ => hstone
  have hreachable : stoneVault.Reachable stoneSupply 0 := .perform .memory 0 _ (.new rfl)
  have hfind : (stoneVault.shelf 0).find? Asset.stone.metadata.id = some Asset.stone := by decide
  have hid : (Json.str "FFFFFFFFFFFFFFFFFFFFFFFFFFFFFFFF").Spells Asset.stone.metadata.id :=
    ⟨_, rfl, Uuid.parse?_eq_some_iff.1 (by decide)⟩
  obtain ⟨v₁, v₂, hgot, -, hstored, halike, -, htext⟩ := (stored_again stoneSupply stoneDispatcher
    "assets" 0 (.basic "ada" "pw") (some ⟨"ada", "pw"⟩) hsupply rfl rfl).2 stoneVault hreachable
    Asset.stone.metadata.id Asset.stone hfind _ _ .element hid
  exact ⟨hsupply, rfl, rfl, hreachable, hfind, v₁, v₂, hgot.1, hstored.2 _ htext, halike⟩

end ModularHost

import ModularHost.Connector.BringUp
import ModularHost.Proofs.Asset.Contents
import ModularHost.Proofs.Asset.Reading
/-!
# An open route to a memory service

Texts go in and answers come out; between them are the reading of a request, the look-up of its
route and its method, the decoding of its data, the service, and the writing of its answer. None of
this shows: whatever texts are sent to an open route of a new memory service, the answers are those
of a finite map from identifiers to assets, and what the service holds at the end is what the map
holds (`assets_run_eq_map_run`). A text that asks nothing is answered with what is wrong with it,
and changes nothing.
-/


namespace ModularHost

/-! ## What a text asks -/

namespace AssetRequest

/-- The request that a method's name and its data make, or what is wrong with them. -/
def ofCall (name : String) (data : Json) : Except ServiceError AssetRequest :=
  match AssetMethod.table.lookup name with
  | none => .error (.unknownMethod name)
  | some method => (decode method data).mapError fun fault => .invalidRequest (fault.message .json)

/-- The request to the asset service that a text makes, or what is wrong with it first. -/
def ofText (text : String) : Except DispatchError AssetRequest :=
  match ServiceRequest.decoder.decodeText text with
  | .error fault => .error (.invalidRequest fault)
  | .ok r =>
    if r.route = assetConnector.route then (ofCall r.method r.data).mapError .service
    else .error (.noRoute r.route)

variable {request : AssetRequest}

theorem mapError_eq_ok_iff {ε ε' α : Type} {f : ε → ε'} {x : Except ε α} {a : α} :
    x.mapError f = .ok a ↔ x = .ok a := by
  cases x <;> simp [Except.mapError]

theorem ofCall_eq_ok_iff {name : String} {data : Json} : ofCall name data = .ok request ↔
    ∃ method, AssetMethod.table.lookup name = some method ∧ Asked method data request := by
  unfold ofCall
  cases AssetMethod.table.lookup name with
  | none => simp
  | some method => simp [mapError_eq_ok_iff, decode_eq_ok_iff]

/-- **The texts that make a request** name the route and a method, and their data make the request
with it. -/
theorem ofText_eq_ok_iff {text : String} :
    ofText text = .ok request ↔ ∃ r method, ServiceRequest.decoder.decodeText text = .ok r ∧
      r.route = assetConnector.route ∧ AssetMethod.table.lookup r.method = some method ∧
      Asked method r.data request := by
  unfold ofText
  cases ServiceRequest.decoder.decodeText text with
  | error fault => simp
  | ok r =>
    by_cases hroute : r.route = assetConnector.route
    · simp [hroute, mapError_eq_ok_iff, ofCall_eq_ok_iff]
    · simp [hroute]

end AssetRequest

/-! ## The two runs -/

namespace AssetMap

/-- What a map answers to a text, and what becomes of it; `issued` is how many new identifiers have
been given out. -/
def step (supply : IdSupply) (m : AssetMap) (issued : Nat) (text : String) :
    Except DispatchError Json × AssetMap × Nat :=
  match AssetRequest.ofText text with
  | .error e => (.error e, m, issued)
  | .ok request =>
    (.ok (m.answer (supply issued) request).1, (m.answer (supply issued) request).2,
      issued + request.unnamed.toNat)

/-- One text after the other, with the answers. -/
def run (supply : IdSupply) (m : AssetMap) (issued : Nat) :
    List String → List (Except DispatchError Json) × AssetMap × Nat
  | [] => ([], m, issued)
  | text :: rest =>
    let next := m.step supply issued text
    let after := next.2.1.run supply next.2.2 rest
    (next.1 :: after.1, after.2)

end AssetMap

/-- One text after the other, with the answers. -/
def Dispatcher.dispatchAll {H σ : Type} (d : Dispatcher H) (handle : Handling H σ) (s : σ) :
    List String → List (Except DispatchError Json) × σ
  | [] => ([], s)
  | text :: rest =>
    let next := d.dispatch handle s text
    let after := d.dispatchAll handle next.2 rest
    (next.1 :: after.1, after.2)

/-! ## One text -/

/-- An asset service on a shelf of its own. -/
def Vault.contents (v : Vault) (serial : Nat) : AssetMap := (v.shelf serial).contents

theorem Vault.shelf_setShelf (v : Vault) (serial : Nat) (s : AssetShelf) :
    (v.setShelf serial s).shelf serial = s := by
  simp [setShelf, shelf]

/-- The route of a memory service, open to everyone. -/
def memoryRoute (serial : Nat) : Route Handler := ⟨.served ⟨serial, .assets .memory⟩, .none⟩

/-- A text is sent to the asset route, if it can be read, or to one that is not there. -/
def Dispatcher.SentToAssets {H : Type} (d : Dispatcher H) (text : String) : Prop :=
  ∀ r, ServiceRequest.decoder.decodeText text = .ok r →
    r.route = assetConnector.route ∨ d.route? r.route = none

section Step

variable {supply : IdSupply} {d : Dispatcher Handler} {serial : Nat} {v : Vault} {text : String}

/-- What a memory service is asked properly, it does; of anything else it says what is wrong. -/
theorem handle_memory (supply : IdSupply) (serial : Nat) (v : Vault) (name : String) (data : Json) :
    (∃ e, AssetRequest.ofCall name data = .error e ∧
      AssetService.memory.handle supply serial v name data = (.error e, v)) ∨
    ∃ request, AssetRequest.ofCall name data = .ok request ∧
      AssetService.memory.handle supply serial v name data =
        ((AssetService.memory.perform supply serial v request).1.map AssetReply.toJson,
          (AssetService.memory.perform supply serial v request).2) := by
  unfold AssetRequest.ofCall AssetService.handle
  cases AssetMethod.table.lookup name with
  | none => exact .inl ⟨_, rfl, rfl⟩
  | some method =>
    cases hdecode : AssetRequest.decode method data with
    | error fault =>
      exact .inl ⟨.invalidRequest (fault.message .json), by simp [hdecode, Except.mapError],
        by simp [hdecode]⟩
    | ok request => exact .inr ⟨request, by simp [hdecode, Except.mapError], by simp [hdecode]⟩

/-- What a memory service does is done to its own shelf, and is what the map does that the shelf
holds. -/
theorem perform_memory (supply : IdSupply) (serial : Nat) (v : Vault) (request : AssetRequest) :
    ∃ reply v', AssetService.memory.perform supply serial v request = (.ok reply, v') ∧
      (reply.toJson, v'.contents serial) = (v.contents serial).answer (supply v.issued) request ∧
      v'.issued = v.issued + request.unnamed.toNat := by
  obtain ⟨hreply, hcontents, hgiven⟩ :=
    (v.shelf serial).perform_eq_answer (supply v.issued) request
  unfold AssetService.perform
  rcases hout : (v.shelf serial).perform (supply v.issued) request with ⟨reply, shelf, given⟩
  rw [hout] at hreply hcontents hgiven
  simp only at hreply hcontents hgiven
  -- counting an identifier does not touch a shelf
  have hshelf : ∀ n, (({ v.setShelf serial shelf with issued := n } : Vault).contents serial) =
      shelf.contents := fun n => congrArg AssetShelf.contents (Vault.shelf_setShelf v serial shelf)
  refine ⟨reply, _, rfl, Prod.ext hreply ?_, ?_⟩
  · cases given
    · exact (hshelf v.issued).trans hcontents
    · exact (hshelf (v.issued + 1)).trans hcontents
  · cases given <;> simp [← hgiven, Vault.setShelf]

/-- **A text comes to what it asks**: to an answer of the service where it makes a request, and
otherwise to what is wrong with it and to nothing else. -/
theorem dispatch_assets (supply : IdSupply) (v : Vault)
    (hroute : d.route? assetConnector.route = some (memoryRoute serial))
    (hsent : d.SentToAssets text) :
    (∃ e, AssetRequest.ofText text = .error e ∧
      d.dispatch (Handler.handle supply) v text = (.error e, v)) ∨
    ∃ request, AssetRequest.ofText text = .ok request ∧
      d.dispatch (Handler.handle supply) v text =
        (((AssetService.memory.perform supply serial v request).1.map AssetReply.toJson).mapError
            .service,
          (AssetService.memory.perform supply serial v request).2) := by
  unfold AssetRequest.ofText
  cases hdecode : ServiceRequest.decoder.decodeText text with
  | error fault => exact .inl ⟨_, rfl, by simp only [Dispatcher.dispatch, hdecode]⟩
  | ok r =>
    by_cases hassets : r.route = assetConnector.route
    · -- the route is open, so the service is asked whoever sends the request
      have hcall : d.dispatch (Handler.handle supply) v text =
          ((AssetService.memory.handle supply serial v r.method r.data).1.mapError .service,
            (AssetService.memory.handle supply serial v r.method r.data).2) := by
        rw [← hassets] at hroute
        simp only [Dispatcher.dispatch, Dispatcher.dispatchRequest, hdecode, hroute]
        rfl
      simp only [if_pos hassets]
      rcases handle_memory supply serial v r.method r.data with
        ⟨e, hof, hout⟩ | ⟨request, hof, hout⟩
      · refine .inl ⟨.service e, by rw [hof]; rfl, ?_⟩
        rw [hcall, hout]
        rfl
      · exact .inr ⟨request, by rw [hof]; rfl, by rw [hcall, hout]⟩
    · have hnone := (hsent r hdecode).resolve_left hassets
      refine .inl ⟨.noRoute r.route, by simp only [if_neg hassets], ?_⟩
      simp only [Dispatcher.dispatch, Dispatcher.dispatchRequest, hdecode, hnone]

/-- What is answered with an error changes nothing at all. -/
theorem dispatch_of_error (hroute : d.route? assetConnector.route = some (memoryRoute serial))
    (hsent : d.SentToAssets text) {e : DispatchError}
    (h : (d.dispatch (Handler.handle supply) v text).1 = .error e) :
    (d.dispatch (Handler.handle supply) v text).2 = v := by
  rcases dispatch_assets supply v hroute hsent with
    ⟨e', -, hout⟩ | ⟨request, -, hout⟩
  · rw [hout]
  · obtain ⟨reply, v', hperform, -⟩ := perform_memory supply serial v request
    rw [hout, hperform] at h
    cases h

/-- **A text is answered as the map answers it**, and leaves what the map becomes. -/
theorem dispatch_eq_step (supply : IdSupply) (v : Vault)
    (hroute : d.route? assetConnector.route = some (memoryRoute serial))
    (hsent : d.SentToAssets text) :
    ((d.dispatch (Handler.handle supply) v text).1,
        (d.dispatch (Handler.handle supply) v text).2.contents serial,
        (d.dispatch (Handler.handle supply) v text).2.issued) =
      (v.contents serial).step supply v.issued text := by
  unfold AssetMap.step
  rcases dispatch_assets supply v hroute hsent with
    ⟨e, hof, hout⟩ | ⟨request, hof, hout⟩
  · simp only [hof, hout]
  · obtain ⟨reply, v', hperform, hanswer, hissued⟩ := perform_memory supply serial v request
    simp only [hof, hout, hperform, ← hanswer, hissued]
    rfl

end Step

/-! ## All texts -/

/-- **Text after text, the answers are those of the map.** -/
theorem dispatchAll_eq_run (supply : IdSupply) {d : Dispatcher Handler} {serial : Nat}
    (hroute : d.route? assetConnector.route = some (memoryRoute serial)) (texts : List String) :
    ∀ v : Vault, (∀ text ∈ texts, d.SentToAssets text) →
      ((d.dispatchAll (Handler.handle supply) v texts).1,
          (d.dispatchAll (Handler.handle supply) v texts).2.contents serial,
          (d.dispatchAll (Handler.handle supply) v texts).2.issued) =
        (v.contents serial).run supply v.issued texts := by
  induction texts with
  | nil => intro v _; rfl
  | cons text rest ih =>
    intro v hsent
    obtain ⟨hfirst, hrest⟩ := List.forall_mem_cons.1 hsent
    have hstep := dispatch_eq_step supply v hroute hfirst
    have hafter := ih (d.dispatch (Handler.handle supply) v text).2 hrest
    simp only [Dispatcher.dispatchAll, AssetMap.run, ← hstep, ← hafter]

/-! ## What every run of the map keeps -/

namespace AssetMap

variable {supply : IdSupply} {m : AssetMap} {issued : Nat} {texts : List String}

theorem SelfNamed.step (h : m.SelfNamed) (hsupply : ∀ n, supply n ≠ .nil) (text : String) :
    (m.step supply issued text).2.1.SelfNamed := by
  unfold AssetMap.step
  cases AssetRequest.ofText text with
  | error e => exact h
  | ok request => exact h.answer (hsupply issued) request

theorem SelfNamed.run (h : m.SelfNamed) (hsupply : ∀ n, supply n ≠ .nil) (texts : List String) :
    (m.run supply issued texts).2.1.SelfNamed := by
  induction texts generalizing m issued with
  | nil => exact h
  | cons text rest ih => exact ih (h.step hsupply text)

/-- An asset comes with an identifier in one of some texts. -/
def Stored (texts : List String) (id : Uuid) : Prop :=
  ∃ text ∈ texts, ∃ a, AssetRequest.ofText text = .ok (.store a) ∧ a.metadata.id = id

/-- Every identifier has come with an asset, or has been given out. -/
def Accounted (supply : IdSupply) (texts : List String) (m : AssetMap) (issued : Nat) : Prop :=
  ∀ id a, m.lookup id = some a → Stored texts id ∨ ∃ n < issued, id = supply n

theorem Accounted.step (h : Accounted supply texts m issued) {text : String} (ht : text ∈ texts) :
    Accounted supply texts (m.step supply issued text).2.1 (m.step supply issued text).2.2 := by
  unfold AssetMap.step
  cases hof : AssetRequest.ofText text with
  | error e => exact h
  | ok request =>
    intro id a ha
    rcases lookup_answer ha with hold | ⟨stored, rfl, -, rfl⟩
    · rcases h id a hold with hstored | ⟨n, hn, hid⟩
      · exact .inl hstored
      · exact .inr ⟨n, Nat.lt_of_lt_of_le hn (Nat.le_add_right _ _), hid⟩
    · unfold Asset.identified
      by_cases hnil : stored.metadata.id = .nil
      · -- the identifier is the one that is given out in this step
        rw [if_pos hnil]
        exact .inr ⟨issued, by simp [AssetRequest.unnamed, hnil], rfl⟩
      · rw [if_neg hnil]
        exact .inl ⟨text, ht, stored, hof, rfl⟩

theorem Accounted.run (h : Accounted supply texts m issued) (rest : List String)
    (hrest : ∀ t ∈ rest, t ∈ texts) :
    Accounted supply texts (m.run supply issued rest).2.1 (m.run supply issued rest).2.2 := by
  induction rest generalizing m issued with
  | nil => exact h
  | cons text rest ih =>
    obtain ⟨hfirst, hrest⟩ := List.forall_mem_cons.1 hrest
    exact ih (h.step hfirst) hrest

/-- **A new identifier is under no asset yet**, if it is none of those that have been given out or
have come with an asset. -/
theorem lookup_new (hgiven : ∀ n < (run supply ∅ issued texts).2.2,
      supply n ≠ supply (run supply ∅ issued texts).2.2)
    (hstored : ¬ Stored texts (supply (run supply ∅ issued texts).2.2)) :
    (run supply ∅ issued texts).2.1.lookup (supply (run supply ∅ issued texts).2.2) = none := by
  have hempty : Accounted supply texts ∅ issued := fun id a h => by simp at h
  have haccounted := hempty.run texts fun t ht => ht
  by_contra hsome
  obtain ⟨a, ha⟩ := Option.ne_none_iff_exists'.1 hsome
  rcases haccounted _ a ha with h | ⟨n, hn, hid⟩
  · exact hstored h
  · exact hgiven n hn hid.symm

end AssetMap

/-- **An open route to a new memory service is a finite map.** Whatever texts are sent to it, the
answers are those of the map and the service holds what the map holds; a text makes a request if and
only if it names the route and a method with data for it; what is answered with an error changes
nothing; and, if new identifiers are identifiers, every asset is under its own and none is under the
one that stands for none. An asset without an identifier is put where there was none, if the new
identifier is none of those so far. -/
theorem assets_run_eq_map_run (supply : IdSupply) (d : Dispatcher Handler) (serial : Nat)
    (v : Vault) (texts : List String)
    (hroute : d.route? assetConnector.route = some (memoryRoute serial))
    (hnew : v.shelf serial = .empty) (hsent : ∀ text ∈ texts, d.SentToAssets text) :
    (d.dispatchAll (Handler.handle supply) v texts).1 =
      (AssetMap.run supply ∅ v.issued texts).1 ∧
    (d.dispatchAll (Handler.handle supply) v texts).2.contents serial =
      (AssetMap.run supply ∅ v.issued texts).2.1 ∧
    (∀ text request, AssetRequest.ofText text = .ok request ↔
      ∃ r method, ServiceRequest.decoder.decodeText text = .ok r ∧
        r.route = assetConnector.route ∧ AssetMethod.table.lookup r.method = some method ∧
        AssetRequest.Asked method r.data request) ∧
    (∀ text e, d.SentToAssets text →
      (d.dispatch (Handler.handle supply) (d.dispatchAll (Handler.handle supply) v texts).2 text).1
        = .error e →
      (d.dispatch (Handler.handle supply) (d.dispatchAll (Handler.handle supply) v texts).2 text).2
        = (d.dispatchAll (Handler.handle supply) v texts).2) ∧
    ((∀ n, supply n ≠ .nil) →
      ((d.dispatchAll (Handler.handle supply) v texts).2.contents serial).SelfNamed) ∧
    ((∀ n < (AssetMap.run supply ∅ v.issued texts).2.2,
        supply n ≠ supply (AssetMap.run supply ∅ v.issued texts).2.2) →
      ¬ AssetMap.Stored texts (supply (AssetMap.run supply ∅ v.issued texts).2.2) →
      ((d.dispatchAll (Handler.handle supply) v texts).2.contents serial).lookup
        (supply (AssetMap.run supply ∅ v.issued texts).2.2) = none) := by
  have hempty : v.contents serial = ∅ := congrArg AssetShelf.contents hnew
  have hruns := dispatchAll_eq_run supply hroute texts v hsent
  rw [hempty] at hruns
  have hcontents : (d.dispatchAll (Handler.handle supply) v texts).2.contents serial =
      (AssetMap.run supply ∅ v.issued texts).2.1 := congrArg (·.2.1) hruns
  refine ⟨congrArg (·.1) hruns, hcontents, fun _ _ => AssetRequest.ofText_eq_ok_iff,
    fun text e hsent he => dispatch_of_error hroute hsent he, fun hsupply => ?_,
    fun hgiven hstored => ?_⟩
  · rw [hcontents]
    exact AssetMap.selfNamed_empty.run hsupply texts
  · rw [hcontents]
    exact AssetMap.lookup_new hgiven hstored

/-- The asset route and nothing else. -/
def memoryDispatcher : Dispatcher Handler := ⟨[(assetConnector.route, memoryRoute 0)]⟩

/-- An asset without an identifier, and its payload by the identifier it is given, in braces. -/
def storeThenGet : List String :=
  ["\x7b\"route\":\"assets\",\"method\":\"store\",\"data\":\x7b\"id\":" ++
    "\"00000000-0000-0000-0000-000000000000\",\"name\":\"stone\",\"asset_type\":0," ++
    "\"data\":[1,2]\x7d\x7d",
   "\x7b\"route\":\"assets\",\"method\":\"get_data\"," ++
    "\"data\":[\"\x7b11111111-1111-1111-1111-111111111111\x7d\"]\x7d"]

theorem assets_run_eq_map_run_storeThenGet :
    memoryDispatcher.route? assetConnector.route = some (memoryRoute 0) ∧
    Vault.empty.shelf 0 = .empty ∧
    (∀ text ∈ storeThenGet, memoryDispatcher.SentToAssets text) ∧
    (memoryDispatcher.dispatchAll (Handler.handle fun _ => ⟨List.replicate 32 1, by decide⟩) .empty
        storeThenGet).1 =
      (AssetMap.run (fun _ => ⟨List.replicate 32 1, by decide⟩) ∅ 0 storeThenGet).1 := by
  have hsent : ∀ text ∈ storeThenGet, memoryDispatcher.SentToAssets text := by
    intro text _ r _
    by_cases hroute : r.route = assetConnector.route
    · exact .inl hroute
    · have hne : (r.route == assetConnector.route) = false := by simpa using hroute
      exact .inr (by simp [memoryDispatcher, Dispatcher.route?, List.lookup_cons, hne])
  exact ⟨rfl, rfl, hsent, (assets_run_eq_map_run _ memoryDispatcher 0 .empty storeThenGet rfl rfl
    hsent).1⟩

end ModularHost

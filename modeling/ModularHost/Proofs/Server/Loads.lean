import ModularHost.Proofs.Container.Unaided
import ModularHost.Proofs.Module.FreshContext
import ModularHost.Proofs.Server.Linked
/-!
# One load of what is linked

A path stands for the linked module or for nothing. In the first case the module is admitted into
the new context, and the registration of its services is all that may fail: they are registered
where the container is empty, and run into their own names where they are there already. Whatever a
load comes to, the site has one more context, and the others are as they were (`Work.Comes`).
-/


namespace ModularHost

variable {β : Type}

/-! ## Paths -/

theorem ModuleTable.mem_of_findForPath {t : ModuleTable β} {path : Path} {d : Declaration β}
    (h : t.findForPath path = some d) : d ∈ t.modules := by
  obtain ⟨stem, -, hfind⟩ := Option.bind_eq_some_iff.1 h
  rcases Option.or_eq_some_iff.1 hfind with hget | ⟨-, hget⟩
  · exact List.mem_of_find?_eq_some hget
  · obtain ⟨_, -, hget⟩ := Option.bind_eq_some_iff.1 hget
    exact List.mem_of_find?_eq_some hget

/-- Whether a path stands for the linked module. -/
def Path.isLinked (p : Path) : Bool := (linkedModules.findForPath p).isSome

theorem Path.findForPath_of_isLinked {p : Path} (h : p.isLinked = true) :
    linkedModules.findForPath p = some assetModule := by
  obtain ⟨d, hd⟩ := Option.isSome_iff_exists.1 h
  obtain rfl := List.mem_singleton.1 (ModuleTable.mem_of_findForPath hd)
  exact hd

/-! ## What the load comes to -/

/-- The bindings of the asset services, as they are registered. -/
def assetBindings : List (Binding Implementation) := boundBy 0 registerAssetServices

/-- The container of a host with linked modules, before the asset module is loaded and after. -/
inductive Container.Stocked : Container Implementation → Bool → Prop
  | empty : Stocked .empty false
  | assets {c : Container Implementation} : c.Unaided → c.registered = assetBindings →
    Stocked c true

namespace Container.Stocked

variable {c : Container Implementation} {stocked : Bool}

/-- Whatever is done with the container but registering, its stock is the same. -/
theorem perform (h : c.Stocked stocked) {call : ContainerCall Implementation}
    (hcall : ¬ call.Registers) : (c.perform call).2.Stocked stocked := by
  cases h with
  | empty =>
    cases call with
    | register | registerInstance | registerNew => exact absurd trivial hcall
    | resolve | contains | names | infos | size => exact .empty
    | resolveAll contract =>
      have hnone : ((.empty : Container Implementation).entriesOf contract).map (·.key) = [] := by
        simp [entriesOf, Entry.sort, Container.empty]
      have hsame : ((.empty : Container Implementation).resolveAll contract).2 = .empty := by
        rw [resolveAll, hnone, materializeAll]
      exact hsame.symm ▸ .empty
  | assets hc hregistered =>
    have hkept : call.Unaided := by
      cases call with
      | register | registerInstance | registerNew => exact absurd trivial hcall
      | resolve | resolveAll | contains | names | infos | size => trivial
    exact .assets (hc.perform hkept) ((hc.registered_perform hcall).trans hregistered)

theorem eq_empty (h : c.Stocked false) : c = .empty := by
  cases h
  rfl

theorem registered_eq (h : c.Stocked true) : c.registered = assetBindings := by
  cases h with
  | assets _ hregistered => exact hregistered

theorem not_empty (h : c.Stocked true) : c ≠ .empty := by
  rintro rfl
  have hregistered := h.registered_eq
  rw [Container.registered, Container.bindings_empty] at hregistered
  cases hregistered

/-- The services are registered in the empty container. -/
theorem register_of_empty (gateOpen : Bool) :
    runRegistration gateOpen registerAssetServices .empty = (.completed, assetContainer) ∧
      assetContainer.Stocked true := by
  refine ⟨runRegistration_assetServices gateOpen, .assets (fun b hb => ?_) ?_⟩
  · rw [bindings_assetContainer] at hb
    simp only [registerAssetServices, boundBy, List.mem_cons, List.not_mem_nil, or_false] at hb
    rcases hb with rfl | rfl <;> exact ⟨rfl, trivial, fun _ => rfl⟩
  · rw [Container.registered, bindings_assetContainer]
    rfl

/-- Where the services are there, the first one runs into its own name. -/
theorem register_again (h : c.Stocked true) (gateOpen : Bool) :
    runRegistration gateOpen registerAssetServices c =
      (.refused (.duplicateName assetServiceContract.name memoryServiceName), c) := by
  have hfirst : Binding.new assetServiceContract memoryServiceName .singleton
      (.make (.assets .memory)) ∈ c.registered := by
    rw [h.registered_eq]
    exact List.mem_cons_self
  obtain ⟨b, hb, hunused⟩ := List.mem_map.1 hfirst
  have hkey : b.key = assetServiceContract.key memoryServiceName := congrArg Binding.key hunused
  have htaken : c.contains assetServiceContract memoryServiceName = true :=
    Container.contains_iff.2 ⟨b, hb, hkey⟩
  have hnamed : Text.isBlank memoryServiceName = false := by decide
  simp [registerAssetServices, runRegistration, Container.register, Container.add, Binding.new,
    hnamed, htaken]

end Container.Stocked

namespace Work

variable {s : Site Implementation} {path : Path}

/-- What the load of a path comes to: the record says which context was made for it, and what became
of that context follows from the outcome. -/
structure Comes (s : Site Implementation) (path : Path) (s' : Site Implementation)
    (r : ModuleRecord Implementation) : Prop where
  path_eq : r.path = path
  context : ∃ c, r.context = some c.id ∧ s.Gains s' c ∧
    (∀ m, r.outcome = .ok m → c.unloaded = false ∧ c.modules = [m]) ∧
    (r.isLoaded = false → c.Closed)

variable {s₁ : Site Implementation} {c : LoadContext Implementation}

/-- A load that fails closes the context it was made for. -/
theorem comes_fail (h : s.Gains s₁ c) (path : Path) (cause : LoadCause)
    (residue : Option (LoadedModule Implementation)) :
    ∃ r s', fail s₁ path c.id cause residue = (.finished r, s') ∧ Comes s path s' r ∧
      r.outcome = .error cause ∧ s'.container = s₁.container := by
  refine ⟨_, _, rfl, ⟨rfl, (c.unload fun _ => false).2, rfl, h.unload _, fun m hm => ?_,
    fun _ => c.closed_unload _⟩, rfl, s₁.container_unload _ _⟩
  cases hm

/-- A load works in a context made for it. -/
theorem advance_created (gateOpen : Bool) (s : Site Implementation) (path : Path) :
    ∃ s₁, s.Gains s₁ (.new ⟨s.contexts.length⟩ (.linked linkedModules)) ∧
      s₁.container = s.container ∧
      advance gateOpen (.linked linkedModules) s (.queued path) =
        admitted gateOpen
          (({ s₁ with linker := ((LoadContext.new ⟨s.contexts.length⟩ (.linked linkedModules)).load
            gateOpen s.host s.files s.linker path).2 } : Site Implementation).settle
            ((LoadContext.new ⟨s.contexts.length⟩ (.linked linkedModules)).load gateOpen s.host
              s.files s.linker path).1) path ⟨s.contexts.length⟩
          ((LoadContext.new ⟨s.contexts.length⟩ (.linked linkedModules)).load gateOpen s.host
            s.files s.linker path).1 :=
  ⟨_, s.gains_createContext _, rfl, rfl⟩

/-- A path that stands for nothing is missing, or is a file that is no module. -/
theorem comes_unlinked (gateOpen : Bool) (s : Site Implementation) (h : path.isLinked = false) :
    ∃ r s' cause, advance gateOpen (.linked linkedModules) s (.queued path) = (.finished r, s') ∧
      Comes s path s' r ∧ r.outcome = .error cause ∧
      (cause = .missing ∨ ∃ name, cause = .malformed (.notLinked name)) ∧
      s'.container = s.container := by
  have hnone : linkedModules.findForPath path = none := by simpa [Path.isLinked] using h
  obtain ⟨s₁, hgains, hcontainer, hadvance⟩ := advance_created gateOpen s path
  obtain ⟨cause, hload, hcause⟩ : ∃ cause,
      (LoadContext.new ⟨s.contexts.length⟩ (.linked linkedModules)).load gateOpen s.host s.files
        s.linker path = (.refused cause, s.linker) ∧
        (cause = .missing ∨ ∃ name, cause = .malformed (.notLinked name)) := by
    by_cases hfile : s.files.isFile path = true
    · exact ⟨.malformed (.notLinked (String.ofList (path.fileName?.getD []))),
        by simp [LoadContext.load, LoadContext.new, ModuleSource.find, hnone, hfile],
        .inr ⟨_, rfl⟩⟩
    · exact ⟨.missing, by simp [LoadContext.load, LoadContext.new, ModuleSource.find, hnone, hfile],
        .inl rfl⟩
  rw [hload] at hadvance
  have hlinker : s.Gains ({ s₁ with linker := s.linker } : Site Implementation) _ :=
    hgains.of_contexts_eq rfl ⟨rfl, rfl⟩
  obtain ⟨r, s', hfail, hcomes, houtcome, hkept⟩ := comes_fail hlinker path cause none
  exact ⟨r, s', cause, hadvance.trans hfail, hcomes, houtcome, hcause, hkept.trans hcontainer⟩

/-- The linked module is admitted into its context, and registers its services. -/
theorem advance_linked (gateOpen : Bool) (hhost : s.host = frameworkScope)
    (h : path.isLinked = true) :
    ∃ m c s₁, s.Gains s₁ c ∧ s₁.container = s.container ∧ c.unloaded = false ∧ c.modules = [m] ∧
      m.path = path ∧ m.context = c.id ∧
      advance gateOpen (.linked linkedModules) s (.queued path) =
        register gateOpen s₁ m registerAssetServices := by
  have hfind := Path.findForPath_of_isLinked h
  obtain ⟨s₁, hgains, hcontainer, hadvance⟩ := advance_created gateOpen s path
  obtain ⟨c, m, hload, hid, hactive, howned, hpath, howner, hregistration⟩ : ∃ c m,
      (LoadContext.new ⟨s.contexts.length⟩ (.linked linkedModules)).load gateOpen s.host s.files
        s.linker path = (.admitted c m, s.linker) ∧ c.id = ⟨s.contexts.length⟩ ∧
        c.unloaded = false ∧ c.modules = [m] ∧ m.path = path ∧ m.context = c.id ∧
        m.registration = registerAssetServices := by
    simp only [LoadContext.load, LoadContext.new, ModuleSource.find, hfind, hhost]
    exact ⟨_, _, rfl, rfl, rfl, rfl, rfl, rfl, rfl⟩
  rw [hload] at hadvance
  have hlinker : s.Gains ({ s₁ with linker := s.linker } : Site Implementation) _ :=
    hgains.of_contexts_eq rfl ⟨rfl, rfl⟩
  refine ⟨m, c, _, hlinker.setContext hid, hcontainer, hactive, howned, hpath, howner,
    hadvance.trans ?_⟩
  simp only [admitted, hregistration, Site.settle]

/-- Where the container is empty, the module is loaded. -/
theorem comes_first (gateOpen : Bool) (hhost : s.host = frameworkScope)
    (hcontainer : s.container.Stocked false) (h : path.isLinked = true) :
    ∃ r s' m, advance gateOpen (.linked linkedModules) s (.queued path) = (.finished r, s') ∧
      Comes s path s' r ∧ r.outcome = .ok m ∧ s'.container.Stocked true := by
  obtain ⟨m, c, s₁, hgains, hsame, hactive, howned, hpath, howner, hadvance⟩ :=
    advance_linked gateOpen hhost h
  have hempty : s₁.container = .empty := hsame.trans hcontainer.eq_empty
  obtain ⟨hrun, hstocked⟩ := Container.Stocked.register_of_empty gateOpen
  have hgained : s.Gains { s₁ with container := assetContainer } c :=
    hgains.of_contexts_eq rfl ⟨rfl, rfl⟩
  refine ⟨⟨path, some c.id, .ok m, none⟩, _, m, hadvance.trans ?_,
    ⟨rfl, c, rfl, hgained, ?_, fun hfailed => ?_⟩, rfl, hstocked⟩
  · simp [register, Site.register, hempty, hrun, hpath, howner]
  · rintro m' ⟨⟩
    exact ⟨hactive, howned⟩
  · cases hfailed

/-- Where the services are there, the module is not loaded once more. -/
theorem comes_again (gateOpen : Bool) (hhost : s.host = frameworkScope)
    (hcontainer : s.container.Stocked true) (h : path.isLinked = true) :
    ∃ r s', advance gateOpen (.linked linkedModules) s (.queued path) = (.finished r, s') ∧
      Comes s path s' r ∧ r.outcome = .error (.registration
        (.duplicateName assetServiceContract.name memoryServiceName)) ∧
      s'.container = s.container := by
  obtain ⟨m, c, s₁, hgains, hsame, -, -, hpath, howner, hadvance⟩ :=
    advance_linked gateOpen hhost h
  have hrun := hcontainer.register_again gateOpen
  rw [← hsame] at hrun
  obtain ⟨r, s', hfail, hcomes, houtcome, hkept⟩ := comes_fail hgains path
    (.registration (.duplicateName assetServiceContract.name memoryServiceName)) (some m)
  refine ⟨r, s', hadvance.trans ?_, hcomes, houtcome, hkept.trans hsame⟩
  rw [← hfail]
  simp [register, Site.register, hrun, hpath, howner]

end Work

/-- Work that ends is answered with its record, and leaves none that is late. -/
theorem Loader.loadWithin_of_finished {l : Loader β} {gateOpen : Bool} {s s' : Site β} {path : Path}
    {r : ModuleRecord β}
    (h : Work.advance gateOpen l.source s (.queued path) = (.finished r, s'))
    (limit : Option Duration) : ∃ l', l.loadWithin gateOpen s path limit = (some r, l', s') ∧
      l'.source = l.source ∧ l'.late = l.late := by
  have hbegun : (l.begin path limit).loads[l.loads.length]? =
      some ⟨path, limit, some (.queued path), none⟩ := by
    simp [begin]
  let answered : Loader β := (l.begin path limit).update l.loads.length fun load =>
    { load with work := none, answer := load.answer.or (some r) }
  have hadvance : (l.begin path limit).advance gateOpen s l.loads.length = (answered, s') := by
    have hwork : Work.advance gateOpen (l.begin path limit).source s (.queued path) =
        (.finished r, s') := h
    simp [advance, hbegun, hwork, complete, answered]
  refine ⟨answered.expire l.loads.length, ?_, rfl, rfl⟩
  rw [loadWithin]
  dsimp only
  rw [hadvance]
  refine Prod.ext ?_ rfl
  cases limit <;> simp [answer?, expire, update, begin, answered]

end ModularHost

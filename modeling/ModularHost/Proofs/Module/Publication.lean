import ModularHost.Proofs.Module.Requirements
/-!
# What the host publishes and what modules are given

The host starts with no types and publishes some while modules are loaded, each into a context of
its own. What a module requires is settled by the host, whose answer for a name stays the same.

So modules that require a name share the host's descriptor (`dependencies_are_the_hosts`), and what
a module registers under a contract it requires is found under the host's contract of that name
(`bindings_under_the_hosts_contracts`): the container tells contracts apart by type, the host by
name, and the admission is where the two meet.
-/


namespace ModularHost

variable {β : Type}

/-! ## Runs -/

/-- A load from a table of linked modules. -/
structure TableLoad (β : Type) where
  table : ModuleTable β
  path : Path
  state : WorkState β
  /-- What it has added to the container. Nothing reads it. -/
  added : List (Binding β)

/-- A site, and the loads into it. -/
structure HostRun (β : Type) where
  site : Site β
  loads : List (TableLoad β)

/-- What can happen to it. -/
inductive HostStep (β : Type) where
  | provide (name : String) (type : TypeRef)
  /-- A load from a table, to its end or to where code waits if the gate is shut. -/
  | load (table : ModuleTable β) (gateOpen : Bool) (path : Path)
  /-- A load that waits goes on, to its end or to where code waits again. -/
  | resume (position : Nat) (gateOpen : Bool)

/-- What a load was given the host has, what it has added is in the container, and its module owes
that to the host. -/
structure TableLoad.OwesHost (load : TableLoad β) (s : Site β) : Prop where
  met : load.state.MetBy s.host load.path (load.table.findForPath load.path)
  none : load.state.unregistered = true → load.added = []
  bound : load.added ⊆ s.container.bindings
  owed : ∀ b ∈ load.added, b.OwedTo s.host (load.table.findForPath load.path)

theorem TableLoad.OwesHost.mono {load : TableLoad β} {s s' : Site β} (h : load.OwesHost s)
    (hgrows : s.host.Grows s'.host) (hbindings : s.container.bindings ⊆ s'.container.bindings) :
    load.OwesHost s' :=
  ⟨h.met.mono hgrows, h.none, List.Subset.trans h.bound hbindings,
    fun b hb => (h.owed b hb).mono hgrows⟩

namespace HostRun

variable {r : HostRun β} {first : List (Binding β)}

/-- A site of any kind, whose host has published nothing. -/
def start (s : Site β) : HostRun β := ⟨{ s with host := .empty }, []⟩

def step (r : HostRun β) : HostStep β → HostRun β
  | .provide name type =>
    match r.site.host.provide name type with
    | .ok (_, host) => { r with site.host := host }
    | .error _ => r
  | .load table gateOpen path =>
    let (state, site) := Loader.loadModule (.linked table) gateOpen r.site path
    let added := site.container.bindings.drop r.site.container.bindings.length
    ⟨site, r.loads ++ [⟨table, path, state, added⟩]⟩
  | .resume position gateOpen =>
    match r.loads[position]? with
    | some ⟨table, path, .waiting work, added⟩ =>
      let (state, site) := work.letThrough.advance gateOpen (.linked table) r.site
      let more := site.container.bindings.drop r.site.container.bindings.length
      ⟨site, r.loads.set position ⟨table, path, state, added ++ more⟩⟩
    | _ => r

def run (r : HostRun β) (steps : List (HostStep β)) : HostRun β := steps.foldl step r

/-- The host tells its descriptors apart, every load owes it what it has, and each binding was there
first or is one that a load added. -/
structure Attributed (r : HostRun β) (first : List (Binding β)) : Prop where
  numbered : r.site.host.Numbered
  loads : ∀ load ∈ r.loads, load.OwesHost r.site
  origin : ∀ b ∈ r.site.container.bindings, b ∈ first ∨ ∃ load ∈ r.loads, b ∈ load.added

theorem attributed_start (s : Site β) : (start s).Attributed s.container.bindings where
  numbered position shared h := by simp [start, HostScope.empty] at h
  loads := by simp [start]
  origin _ hb := .inl hb

/-- The host keeps the types it has published. -/
theorem grows_provide (r : HostRun β) (name : String) (type : TypeRef) :
    r.site.host.Grows (r.step (.provide name type)).site.host := by
  rcases hprovide : r.site.host.provide name type with e | ⟨shared, host⟩ <;>
    simp only [step, hprovide]
  · exact .refl _
  · exact HostScope.lookup_provide hprovide

theorem Attributed.provide (h : r.Attributed first) (name : String) (type : TypeRef) :
    (r.step (.provide name type)).Attributed first := by
  have hgrows := r.grows_provide name type
  rcases hprovide : r.site.host.provide name type with e | ⟨shared, host⟩ <;>
    simp only [step, hprovide] at hgrows ⊢
  · exact h
  · exact ⟨HostScope.numbered_provide h.numbered hprovide, fun load hload =>
      (h.loads load hload).mono hgrows (List.Subset.refl _), h.origin⟩

/-- **A load whose work goes on adds what is owed to the host, and no other load is touched.** Its
place in the list is for the step to say. -/
theorem Attributed.reached (h : r.Attributed first) {t : ModuleTable β} {path : Path}
    {added new : List (Binding β)} {out : WorkState β × Site β}
    (hout : WorkState.Reached r.site.host path (t.findForPath path) r.site new out)
    (hbound : added ⊆ r.site.container.bindings)
    (howed : ∀ b ∈ added, b.OwedTo r.site.host (t.findForPath path))
    (hnone : out.1.unregistered = true → added = []) :
    let load₀ : TableLoad β := ⟨t, path, out.1,
      added ++ out.2.container.bindings.drop r.site.container.bindings.length⟩
    ∀ loads : List (TableLoad β), load₀ ∈ loads → (∀ load ∈ loads, load = load₀ ∨ load ∈ r.loads) →
      (∀ load ∈ r.loads, load ∈ loads ∨ load.added = added) →
      Attributed ⟨out.2, loads⟩ first := by
  intro load₀ loads hin hloads hkept
  have hadded : load₀.added = added ++ new := by
    simp only [load₀, hout.bindings_eq, List.drop_left]
  have hgrows : r.site.host.Grows out.2.host := hout.host_eq ▸ .refl _
  have hsub : r.site.container.bindings ⊆ out.2.container.bindings := by
    rw [hout.bindings_eq]
    exact List.subset_append_left _ _
  have hnew : load₀.OwesHost out.2 := by
    refine ⟨hout.met.mono hgrows, fun hun => ?_, ?_, ?_⟩
    · rw [hadded, hnone hun, hout.none hun, List.append_nil]
    · rw [hadded]
      refine List.append_subset.2 ⟨List.Subset.trans hbound hsub, ?_⟩
      rw [hout.bindings_eq]
      exact List.subset_append_right _ _
    · rw [hadded]
      intro b hb
      rcases List.mem_append.1 hb with hb | hb
      · exact (howed b hb).mono hgrows
      · exact (hout.owed b hb).mono hgrows
  refine ⟨?_, fun load hload => ?_, fun b hb => ?_⟩
  · dsimp only
    rw [hout.host_eq]
    exact h.numbered
  · rcases hloads load hload with rfl | hold
    · exact hnew
    · exact (h.loads load hold).mono hgrows hsub
  · rw [hout.bindings_eq] at hb
    rcases List.mem_append.1 hb with hb | hb
    · rcases h.origin b hb with hfirst | ⟨load, hload, hb⟩
      · exact .inl hfirst
      · rcases hkept load hload with hstays | hgone
        · exact .inr ⟨load, hstays, hb⟩
        · exact .inr ⟨load₀, hin, hadded ▸ List.mem_append_left _ (hgone ▸ hb)⟩
    · exact .inr ⟨load₀, hin, hadded ▸ List.mem_append_right _ hb⟩

/-- Work leaves the host as it is. -/
theorem host_load (r : HostRun β) (t : ModuleTable β) (gateOpen : Bool) (path : Path) :
    (r.step (.load t gateOpen path)).site.host = r.site.host := by
  have hqueued : (WorkState.waiting (.queued path)).MetBy r.site.host path (t.findForPath path) :=
    rfl
  obtain ⟨⟨new, hout⟩, -⟩ := Work.reached_advance gateOpen r.site hqueued
  exact hout.host_eq

theorem Attributed.load (h : r.Attributed first) (t : ModuleTable β) (gateOpen : Bool)
    (path : Path) :
    (r.step (.load t gateOpen path)).Attributed first := by
  have hqueued : (WorkState.waiting (.queued path)).MetBy r.site.host path (t.findForPath path) :=
    rfl
  obtain ⟨⟨new, hout⟩, -⟩ := Work.reached_advance gateOpen r.site hqueued
  refine h.reached hout (List.nil_subset _) (by simp) (fun _ => rfl) _
    (List.mem_append_right _ List.mem_cons_self) (fun load hload => ?_) fun load hload => ?_
  · rcases List.mem_append.1 hload with hload | hload
    · exact .inr hload
    · exact .inl (List.mem_singleton.1 hload)
  · exact .inl (List.mem_append_left _ hload)

/-- A load that waits goes on from where it was; any other has come to its end. -/
theorem Attributed.resume_cases (h : r.Attributed first) (position : Nat) (gateOpen : Bool) :
    r.step (.resume position gateOpen) = r ∨
    ∃ (load : TableLoad β) (work : Work β) (new : List (Binding β)),
      r.loads[position]? = some load ∧
      WorkState.Reached r.site.host load.path (load.table.findForPath load.path) r.site new
        (work.letThrough.advance gateOpen (.linked load.table) r.site) ∧
      ((work.letThrough.advance gateOpen (.linked load.table) r.site).1.unregistered = true →
        load.added = []) ∧
      r.step (.resume position gateOpen) =
        ⟨(work.letThrough.advance gateOpen (.linked load.table) r.site).2,
          r.loads.set position ⟨load.table, load.path,
            (work.letThrough.advance gateOpen (.linked load.table) r.site).1,
            load.added ++ (work.letThrough.advance gateOpen (.linked load.table)
              r.site).2.container.bindings.drop r.site.container.bindings.length⟩⟩ := by
  cases hload : r.loads[position]? with
  | none => exact .inl (by simp only [step, hload])
  | some load =>
    obtain ⟨table, path, state, added⟩ := load
    cases state with
    | finished record => exact .inl (by simp only [step, hload])
    | crashed => exact .inl (by simp only [step, hload])
    | waiting work =>
      have hmem := List.mem_of_getElem? hload
      have hsound := h.loads _ hmem
      obtain ⟨⟨new, hout⟩, hun⟩ := Work.reached_advance gateOpen r.site hsound.met.letThrough
      rw [WorkState.unregistered_letThrough] at hun
      exact .inr ⟨_, work, new, rfl, hout, fun hnone => hsound.none (hun hnone),
        by simp only [step, hload]⟩

theorem Attributed.resume (h : r.Attributed first) (position : Nat) (gateOpen : Bool) :
    (r.step (.resume position gateOpen)).Attributed first := by
  rcases h.resume_cases position gateOpen with
    hsame | ⟨load, work, new, hload, hout, hnone, hstep⟩
  · rw [hsame]
    exact h
  · have hsound := h.loads load (List.mem_of_getElem? hload)
    have hlt : position < r.loads.length := (List.getElem?_eq_some_iff.1 hload).1
    rw [hstep]
    refine h.reached hout hsound.bound hsound.owed hnone _ (List.mem_set hlt _)
      (fun load' hload' => (List.mem_or_eq_of_mem_set hload').symm) fun load' hload' => ?_
    -- the load at the position is replaced, any other stays
    obtain ⟨q, hq⟩ := List.mem_iff_getElem?.1 hload'
    by_cases hqp : position = q
    · subst hqp
      obtain rfl : load = load' := Option.some.inj (hload.symm.trans hq)
      exact .inr rfl
    · exact .inl (List.mem_of_getElem? ((List.getElem?_set_ne hqp).trans hq))

/-- **After every step each binding is still accounted for, and the host has kept its types.** -/
theorem Attributed.step (h : r.Attributed first) (s : HostStep β) :
    (r.step s).Attributed first ∧ r.site.host.Grows (r.step s).site.host := by
  cases s with
  | provide name type => exact ⟨h.provide name type, r.grows_provide name type⟩
  | load t gateOpen path => exact ⟨h.load t gateOpen path, (r.host_load t gateOpen path) ▸ .refl _⟩
  | resume position gateOpen =>
    refine ⟨h.resume position gateOpen, ?_⟩
    rcases h.resume_cases position gateOpen with
      hsame | ⟨load, work, new, -, hout, -, hstep⟩
    · rw [hsame]
      exact .refl _
    · rw [hstep]
      dsimp only
      rw [hout.host_eq]
      exact .refl _

theorem Attributed.run (h : r.Attributed first) (steps : List (HostStep β)) :
    (r.run steps).Attributed first ∧ r.site.host.Grows (r.run steps).site.host := by
  induction steps generalizing r with
  | nil => exact ⟨h, .refl _⟩
  | cons s rest ih =>
    obtain ⟨hstep, hgrows⟩ := h.step s
    obtain ⟨hrun, hgrows'⟩ := ih hstep
    exact ⟨hrun, fun name shared hs => hgrows' _ _ (hgrows _ _ hs)⟩

/-! ## What modules are given -/

/-- What a module was given the host has. -/
theorem Attributed.lookup_of_dependency (h : r.Attributed first) {load : TableLoad β}
    (hload : load ∈ r.loads)
    {m : LoadedModule β} (hm : load.state.Loaded m) {shared : SharedType}
    (hs : shared ∈ m.dependencies) : r.site.host.lookup shared.name = some shared := by
  obtain ⟨d, -, hmet⟩ := (h.loads load hload).met.loaded hm
  obtain ⟨wanted, -, hmeets⟩ := hmet.dependencies
  obtain ⟨position, hlt, rfl⟩ := List.mem_iff_getElem.1 hs
  have hlt' : position < wanted.length := hmeets.length_eq ▸ hlt
  have hlookup := (hmeets.get hlt' hlt).lookup
  have hname := HostScope.name_of_lookup hlookup
  exact (congrArg _ hname).trans hlookup

/-- **Every dependency of every module is the host's.** In every run of publications and loads from
any tables: a name that is free takes the type that is published under it first, and is answered
with that same descriptor ever after, to those who publish the type again as to those who look it
up, while another type is refused and changes nothing. Loads leave the host as it is. What a module
was given for the types it requires, in their order, is what the host had under their names when it
was loaded and has at any later time, and none of it comes from a context; so modules that were
given something under one name were given the same. -/
theorem dependencies_are_the_hosts (s : Site β) (earlier later : List (HostStep β)) :
    let r := (start s).run earlier
    let r' := r.run later
    (∀ name type, r.site.host.lookup name = none → ∃ shared host',
      r.site.host.provide name type = .ok (shared, host') ∧ shared.name = name ∧
        shared.type = type ∧ host'.lookup name = some shared) ∧
    (∀ name shared, r.site.host.lookup name = some shared →
      r'.site.host.lookup name = some shared ∧
      ∀ type, r'.site.host.provide name type =
        if shared.describes type then .ok (shared, r'.site.host)
        else .error ⟨name, shared.type, type⟩) ∧
    (∀ name name' shared shared', r.site.host.lookup name = some shared →
      r.site.host.lookup name' = some shared' → shared.serial = shared'.serial →
      shared = shared') ∧
    (∀ t gateOpen path, (r.step (.load t gateOpen path)).site.host = r.site.host) ∧
    (∀ load ∈ r.loads, ∀ m, load.state.Loaded m → ∃ d wanted,
      load.table.findForPath load.path = some d ∧
      d.requirements.map (·.answer) = wanted.map .ok ∧
      List.Forall₂ (fun wanted shared => r.site.host.Meets wanted shared ∧
        r'.site.host.Meets wanted shared ∧ shared.origin = .host) wanted m.dependencies) ∧
    ∀ load ∈ r.loads, ∀ load' ∈ r.loads, ∀ m m', load.state.Loaded m → load'.state.Loaded m' →
      ∀ shared ∈ m.dependencies, ∀ shared' ∈ m'.dependencies,
        shared.name = shared'.name → shared = shared' := by
  intro r r'
  obtain ⟨hsound, -⟩ := (attributed_start s).run earlier
  have hgrows : r.site.host.Grows r'.site.host := (Attributed.run hsound later).2
  refine ⟨fun name type hfree => HostScope.provide_of_free hfree type, fun name shared hs => ?_,
    fun name name' shared shared' => HostScope.eq_of_serial_eq hsound.numbered,
    r.host_load, fun load hload m hm => ?_, ?_⟩
  · have hs' := hgrows name shared hs
    exact ⟨hs', HostScope.provide_of_lookup hs'⟩
  · obtain ⟨d, hd, hmet⟩ := (hsound.loads load hload).met.loaded hm
    obtain ⟨wanted, hwanted, hmeets⟩ := hmet.dependencies
    exact ⟨d, wanted, hd, hwanted, hmeets.imp fun _ _ hmeets =>
      ⟨hmeets, hmeets.mono hgrows, HostScope.origin_of_lookup hsound.numbered hmeets.lookup⟩⟩
  · intro load hload load' hload' m m' hm hm' shared hs shared' hs' hname
    have hlookup : r.site.host.lookup shared.name = some shared :=
      hsound.lookup_of_dependency hload hm hs
    have hlookup' : r.site.host.lookup shared'.name = some shared' :=
      hsound.lookup_of_dependency hload' hm' hs'
    rw [hname, hlookup'] at hlookup
    exact (Option.some.inj hlookup).symm

/-- A module that is given a type. -/
def readerModule : Declaration Unit :=
  ⟨hostAbi, "reader", "1", [⟨false, .ok ⟨"Store", ⟨1, "Store"⟩⟩⟩], [], []⟩

/-- It is loaded twice, before and after someone tries to publish another type under the name. -/
def readerSteps : List (HostStep Unit) :=
  [.provide "Store" ⟨1, "Store"⟩, .load ⟨[readerModule]⟩ true ⟨"reader.module"⟩,
    .provide "Store" ⟨2, "Store"⟩, .load ⟨[readerModule]⟩ true ⟨"libreader.so"⟩]

theorem dependencies_are_the_hosts_reader :
    let r := (start default).run readerSteps
    ∃ load ∈ r.loads, ∃ load' ∈ r.loads, ∃ m m', load.state.Loaded m ∧ load'.state.Loaded m' ∧
      m.context ≠ m'.context ∧
      ∃ shared, m.dependencies = [shared] ∧ m'.dependencies = [shared] := by
  intro r
  obtain ⟨load, load', hloads, m, m', hm, hm', hcontexts, shared, shared', hs, hs', hname⟩ :
      ∃ load load', r.loads = [load, load'] ∧ ∃ m m', load.state.Loaded m ∧ load'.state.Loaded m' ∧
        m.context ≠ m'.context ∧ ∃ shared shared', m.dependencies = [shared] ∧
          m'.dependencies = [shared'] ∧ shared.name = shared'.name :=
    ⟨_, _, rfl, _, _, ⟨_, rfl, rfl⟩, ⟨_, rfl, rfl⟩, by decide +kernel, _, _, rfl, rfl, rfl⟩
  have hload : load ∈ r.loads := hloads ▸ List.mem_cons_self
  have hload' : load' ∈ r.loads := hloads ▸ List.mem_cons_of_mem _ List.mem_cons_self
  obtain ⟨-, -, -, -, -, hshare⟩ := dependencies_are_the_hosts (default : Site Unit) readerSteps []
  have heq : shared = shared' := hshare load hload load' hload' m m' hm hm' shared
    (hs ▸ List.mem_cons_self) shared' (hs' ▸ List.mem_cons_self) hname
  exact ⟨load, hload, load', hload', m, m', hm, hm', hcontexts, shared, hs, heq ▸ hs'⟩

/-! ## What modules register -/

end HostRun

/-- Each contract that a module registers implementations of is among the types it requires. -/
def Declaration.ListsContracts (d : Declaration β) : Prop :=
  ∀ step ∈ d.registration, ∀ contract name, step.target? = some (contract, name) →
    ∃ describer ∈ d.requirements, ∃ wanted, describer.answer = .ok wanted ∧
      wanted.name = contract.name ∧ wanted.type.same contract.type = true

/-- What is found can be resolved, or fails for reasons of its own. -/
theorem Container.resolve_ne_unresolvedName {c : Container β} {contract : Contract} {name : String}
    {b : Binding β} (h : c.find? contract name = some b) (contract' name' : String) :
    (c.resolve contract name).1 ≠ .error (.unresolvedName contract' name') := by
  have hrow : c.ledger.find? contract name = some b.row := by rw [ledger_find?, h, Option.map_some]
  have hne := Ledger.resolve_ne_unresolvedName hrow contract' name'
  rw [ledger_resolve] at hne
  exact hne

namespace HostRun

/-- **What a module registers under a contract it requires is found under the host's.** In every run
of publications and loads from any tables: each binding in the container was there first or is one
that a load added. A load that came to no registration has added none, for whatever reason it was
refused. A module that lists the contracts it registers has added each binding under the very type
that the host publishes under the contract's name, however far its registration came: the host's
contract finds the binding by its name, and resolving it never says that there is none. -/
theorem bindings_under_the_hosts_contracts (s : Site β) (steps : List (HostStep β)) :
    let r := (start s).run steps
    (∀ b ∈ r.site.container.bindings,
      b ∈ s.container.bindings ∨ ∃ load ∈ r.loads, b ∈ load.added) ∧
    ∀ load ∈ r.loads,
      (∀ record cause, load.state = .finished record → record.outcome = .error cause →
        cause.ofRegistration = false → load.added = []) ∧
      load.added ⊆ r.site.container.bindings ∧
      ((∀ d, load.table.findForPath load.path = some d → d.ListsContracts) →
        ∀ b ∈ load.added, ∃ shared, r.site.host.lookup b.contract.name = some shared ∧
          b.contract.same ⟨shared.type, b.contract.name⟩ = true ∧
          r.site.container.find? ⟨shared.type, b.contract.name⟩ b.name = some b ∧
          ∀ contract name, (r.site.container.resolve ⟨shared.type, b.contract.name⟩ b.name).1 ≠
            .error (.unresolvedName contract name)) := by
  intro r
  obtain ⟨hsound, -⟩ := (attributed_start s).run steps
  refine ⟨hsound.origin, fun load hload => ?_⟩
  have howes := hsound.loads load hload
  refine ⟨fun record cause hrecord hcause hnone => howes.none ?_, howes.bound,
    fun hlists b hb => ?_⟩
  · simp [WorkState.unregistered, hrecord, hcause, hnone]
  · obtain ⟨d, hd, hmeets, step, hstep, htarget⟩ := howes.owed b hb
    obtain ⟨describer, hdescriber, wanted, hanswer, hname, hsame⟩ :=
      hlists d hd step hstep b.contract b.name htarget
    obtain ⟨wanted', shared, hanswer', hshared⟩ := hmeets describer hdescriber
    obtain rfl : wanted = wanted' := Except.ok.inj (hanswer.symm.trans hanswer')
    -- the host's type is the required one, which is the contract's
    have hdescribes := TypeRef.same_iff.1 hshared.describes
    have hcontract : b.contract.same ⟨shared.type, b.contract.name⟩ = true :=
      Contract.same_iff.2 ((TypeRef.same_iff.1 hsame).symm.trans hdescribes.symm)
    have hfound := Container.find?_of_mem (howes.bound hb) hcontract
    exact ⟨shared, hname ▸ hshared.lookup, hcontract, hfound,
      Container.resolve_ne_unresolvedName hfound⟩

/-- A module that gives up after one of its bindings. -/
def hastyModule : Declaration Unit :=
  ⟨hostAbi, "hasty", "1", [⟨false, .ok ⟨"Store", ⟨1, "Store"⟩⟩⟩], [],
    [.bindInstance ⟨⟨1, "Store"⟩, "Store"⟩ "main" (), .panic ⟨none⟩]⟩

theorem hastyModule_listsContracts : hastyModule.ListsContracts := by
  intro step hstep contract name htarget
  refine ⟨_, List.mem_cons_self, _, rfl, ?_⟩
  simp only [hastyModule, List.mem_cons, List.not_mem_nil, or_false] at hstep
  rcases hstep with rfl | rfl
  · cases htarget
    exact ⟨rfl, rfl⟩
  · cases htarget

theorem bindings_under_the_hosts_contracts_hasty :
    let r := (start default).run
      [.provide "Store" ⟨1, "Store"⟩, .load ⟨[hastyModule]⟩ true ⟨"hasty.module"⟩]
    ∃ load ∈ r.loads,
      (∀ d, load.table.findForPath load.path = some d → d.ListsContracts) ∧
      ∃ b ∈ load.added, ∃ shared, r.site.host.lookup "Store" = some shared ∧
        r.site.container.find? ⟨shared.type, "Store"⟩ "main" = some b := by
  intro r
  obtain ⟨load, hloads, hdeclared⟩ :
      ∃ load, r.loads = [load] ∧ load.table.findForPath load.path = some hastyModule :=
    ⟨_, rfl, rfl⟩
  have hadded : (r.loads.flatMap (·.added)).map (fun b => (b.contract, b.name)) =
      [(⟨⟨1, "Store"⟩, "Store"⟩, "main")] := by decide +kernel
  rw [hloads, List.flatMap_singleton] at hadded
  obtain ⟨b, rest, hone, hb', -⟩ := List.map_eq_cons_iff.1 hadded
  obtain ⟨hcontract, hname⟩ := Prod.mk.inj hb'
  have hload : load ∈ r.loads := hloads ▸ List.mem_cons_self
  have hb : b ∈ load.added := hone ▸ List.mem_cons_self
  have hlists : ∀ d, load.table.findForPath load.path = some d → d.ListsContracts := by
    intro d hd
    obtain rfl : hastyModule = d := Option.some.inj (hdeclared.symm.trans hd)
    exact hastyModule_listsContracts
  obtain ⟨-, hall⟩ := bindings_under_the_hosts_contracts default
    [.provide "Store" ⟨1, "Store"⟩, .load ⟨[hastyModule]⟩ true ⟨"hasty.module"⟩]
  obtain ⟨shared, hshared, -, hfind, -⟩ := (hall load hload).2.2 hlists b hb
  rw [hcontract] at hshared hfind
  rw [hname] at hfind
  exact ⟨load, hload, hlists, b, hb, shared, hshared, hfind⟩

end HostRun
end ModularHost

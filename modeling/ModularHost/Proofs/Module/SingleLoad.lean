import ModularHost.Module.Loader
import ModularHost.Proofs.Module.Admission
import ModularHost.Proofs.Module.Registration
/-!
# One load

A load from a table of linked modules works in a context made for it, and with the gate open it
comes to its end at once. Its record explains what it did: which context it was, what that context
owns afterwards, and which bindings are in the container (`ModuleRecord.Explains`). Whatever goes
wrong, the bindings that were there before are untouched, and unloading the context later does not
touch any.
-/


namespace ModularHost

variable {β : Type}

/-! ## Contexts of a site -/

namespace Site

variable {s : Site β} {c : LoadContext β} {id : ContextId}

theorem fresh_id (s : Site β) : (⟨s.contexts.length⟩ : ContextId) ∉ s.contexts.map (·.id) := by
  rw [s.numbered]
  simp

/-- A context just made is found under its identifier. -/
theorem context?_createContext (s : Site β) (source : ModuleSource β) :
    (s.createContext source).2.context? (s.createContext source).1.id
      = some (s.createContext source).1 := by
  have hnone : s.contexts.find? (fun c => c.id == (⟨s.contexts.length⟩ : ContextId)) = none := by
    refine List.find?_eq_none.2 fun c hc => ?_
    have hne : c.id ≠ ⟨s.contexts.length⟩ := fun h =>
      s.fresh_id (List.mem_map.2 ⟨c, hc, h⟩)
    simpa using hne
  simp only [createContext, context?, LoadContext.new, List.find?_append, hnone]
  simp

theorem context?_setContext (h : (s.context? c.id).isSome) :
    (s.setContext c).context? c.id = some c := by
  rw [context?, setContext, List.find?_map]
  obtain ⟨old, hold⟩ := Option.isSome_iff_exists.1 h
  have hid : old.id = c.id := by simpa using List.find?_some hold
  have hfind : s.contexts.find?
      ((fun x => x.id == c.id) ∘ fun x => if x.id = c.id then c else x) = some old := by
    rw [← hold, context?]
    congr 1
    funext x
    by_cases hx : x.id = c.id <;> simp [hx]
  rw [hfind]
  simp [hid]

/-- Unloading a context puts it in its place and leaves everything else. -/
theorem unload_eq (held : Lease → Bool) (h : s.context? id = some c) :
    (s.unload held id).2 = s.setContext (c.unload held).2 := by
  simp [unload, h]

/-- **Unloading takes no binding out of the container.** -/
theorem container_unload (s : Site β) (held : Lease → Bool) (id : ContextId) :
    (s.unload held id).2.container = s.container := by
  unfold unload
  split <;> rfl

end Site

/-! ## What a record accounts for -/

/-- A context that lets go of its modules and takes no other. -/
structure LoadContext.Closed (c : LoadContext β) : Prop where
  unloaded : c.unloaded = true
  modules : c.modules = []
  refuses : ∀ gateOpen host files linker path,
    (c.load gateOpen host files linker path).1 = .refused (.contextUnloaded c.id)

theorem LoadContext.closed_unload (c : LoadContext β) (held : Lease → Bool) :
    (c.unload held).2.Closed where
  unloaded := rfl
  modules := rfl
  refuses _ _ _ _ _ := rfl

variable {t : ModuleTable β} {path : Path}

/-- What a failed load has done to the container, by the cause of the failure: the steps of the
registration before the one that stopped it, and nothing when it came to no registration. -/
def LoadCause.Explains (t : ModuleTable β) (path : Path) (c c' : Container β) :
    LoadCause → Prop
  | .registration e => ∃ d done step later, t.findForPath path = some d ∧
      d.registration = done ++ step :: later ∧ Registers c done c' ∧ step.Fails c' e
  | .panicked p => ∃ d done later, t.findForPath path = some d ∧
      d.registration = done ++ .panic p :: later ∧ Registers c done c'
  | _ => c' = c

/-- What a load that succeeds leaves. -/
structure LoadedModule.Settled (m : LoadedModule β) (t : ModuleTable β) (path : Path)
    (c : LoadContext β) (before after : Container β) : Prop where
  active : c.unloaded = false
  owned : c.modules = [m]
  declared : ∃ d, t.findForPath path = some d ∧ d.Yields m
  registered : Registers before m.registration after

/-- **A record of a load explains what became of the site.** It has the path and a context that
there was not before, and the bindings that there were come first. -/
structure ModuleRecord.Explains (r : ModuleRecord β) (t : ModuleTable β) (s : Site β) (path : Path)
    (s' : Site β) : Prop where
  path_eq : r.path = path
  context : ∃ c, r.context = some c.id ∧ c.id ∉ s.contexts.map (·.id) ∧
    s'.context? c.id = some c ∧
    (∀ m, r.outcome = .ok m → m.Settled t path c s.container s'.container) ∧
    ∀ cause, r.outcome = .error cause →
      c.Closed ∧ cause.Explains t path s.container s'.container
  kept : s.container.bindings <+: s'.container.bindings
  unload : ∀ held id, (s'.unload held id).2.container = s'.container

namespace LoadCause

variable {c c' : Container β} {cause : LoadCause}

theorem explains_of_not_ofRegistration (h : cause.ofRegistration = false) (hc : c' = c) :
    cause.Explains t path c c' := by
  cases cause with
  | registration e => cases h
  | panicked p => cases h
  | missing | malformed | abiMismatch | unsatisfied | typeMismatch | alreadyLoaded
  | contextUnloaded | interrupted | timedOut => exact hc

theorem Explains.kept (h : cause.Explains t path c c') : c.bindings <+: c'.bindings := by
  cases cause with
  | registration e =>
    obtain ⟨d, done, step, later, -, -, hdone, -⟩ := h
    exact hdone.kept
  | panicked p =>
    obtain ⟨d, done, later, -, -, hdone⟩ := h
    exact hdone.kept
  | missing | malformed | abiMismatch | unsatisfied | typeMismatch | alreadyLoaded
  | contextUnloaded | interrupted | timedOut =>
    obtain rfl : c' = c := h
    exact List.prefix_rfl

end LoadCause

/-! ## From the admission to the record -/

namespace Work

variable {s₀ s : Site β} {c : LoadContext β} {m : LoadedModule β} {d : Declaration β}
  {cause : LoadCause}

/-- A load that fails closes its context, and has done what its cause explains. -/
theorem explains_fail (hid : c.id ∉ s₀.contexts.map (·.id)) (hc : s.context? c.id = some c)
    (hcause : cause.Explains t path s₀.container s.container)
    (residue : Option (LoadedModule β)) :
    ∃ r s', fail s path c.id cause residue = (.finished r, s') ∧ r.Explains t s₀ path s' := by
  have hfound : (s.context? (c.unload fun _ => false).2.id).isSome :=
    Option.isSome_iff_exists.2 ⟨c, hc⟩
  refine ⟨_, _, rfl, rfl, ⟨(c.unload fun _ => false).2, rfl, hid, ?_, ?_, ?_⟩, ?_, ?_⟩
  · rw [Site.unload_eq _ hc]
    exact Site.context?_setContext hfound
  · intro m hm
    cases hm
  · rintro cause' ⟨⟩
    exact ⟨c.closed_unload _, by rw [Site.container_unload]; exact hcause⟩
  · rw [Site.container_unload]
    exact hcause.kept
  · exact fun held id => Site.container_unload _ held id

/-- An admitted module registers, and the load ends as the registration does. -/
theorem explains_register (hid : c.id ∉ s₀.contexts.map (·.id)) (hc : s.context? c.id = some c)
    (hcontainer : s.container = s₀.container) (hd : t.findForPath path = some d)
    (hyields : d.Yields m) (hactive : c.unloaded = false) (howned : c.modules = [m])
    (hpath : m.path = path) (howner : m.context = c.id) :
    ∃ r s', register true s m m.registration = (.finished r, s') ∧ r.Explains t s₀ path s' := by
  -- the registration splits where it stops, and each way of stopping is one way of ending
  obtain ⟨done, left, hsteps, hdone, hstop⟩ := registers_run m.registration s.container
  have hreg : d.registration = done ++ left := hyields.registration ▸ hsteps
  rw [hcontainer] at hdone hstop
  simp only [register, Site.register, hcontainer]
  rcases hrun : runRegistration true m.registration s₀.container with
    ⟨(- | e | p | steps), container⟩ <;> rw [hrun] at hdone hstop
  · -- nothing is left, so all steps were done
    obtain rfl : left = [] := hstop
    rw [List.append_nil] at hsteps
    refine ⟨_, _, rfl, hpath, ⟨c, by rw [howner], hid, hc, ?_, ?_⟩, hdone.kept, ?_⟩
    · rintro m' ⟨⟩
      exact ⟨hactive, howned, ⟨d, hd, hyields⟩, hsteps ▸ hdone⟩
    · intro cause hcause
      cases hcause
    · exact fun held id => Site.container_unload _ held id
  · obtain ⟨step, later, rfl, hfails⟩ := hstop
    rw [hpath, howner]
    have hcause : LoadCause.Explains t path s₀.container container (.registration e) :=
      ⟨d, done, step, later, hd, hreg, hdone, hfails⟩
    exact explains_fail (s := { s with container }) hid hc hcause (some m)
  · obtain ⟨later, rfl⟩ := hstop
    rw [hpath, howner]
    have hcause : LoadCause.Explains t path s₀.container container (.panicked p) :=
      ⟨d, done, later, hd, hreg, hdone⟩
    exact explains_fail (s := { s with container }) hid hc hcause (some m)
  · exact hstop.elim

/-- **An admission into an empty context ends in a record, or breaks down** where code that
describes a type panics. -/
theorem explains_admitted (hid : c.id ∉ s₀.contexts.map (·.id)) (hc : s.context? c.id = some c)
    (hcontainer : s.container = s₀.container) (hd : t.findForPath path = some d)
    (hactive : c.unloaded = false) (howned : c.modules = []) {host : HostScope}
    {admission : Admission β} (hfollows : admission.Follows host c path d)
    (hends : admission.Ends (d.requirements ++ d.exports)) :
    (∃ r s', admitted true (s.settle admission) path c.id admission = (.finished r, s') ∧
      r.Explains t s₀ path s') ∨
    ∃ s', admitted true (s.settle admission) path c.id admission = (.crashed, s') ∧
      s'.container = s₀.container := by
  cases admission with
  | admitted c' m =>
    have hcontext : c' = { c with modules := [m], exports := c'.exports } := by
      rw [hfollows.context_eq, howned]
      rfl
    have hid' : c'.id = c.id := by rw [hcontext]
    have hc' : (s.setContext c').context? c'.id = some c' :=
      Site.context?_setContext (Option.isSome_iff_exists.2 ⟨c, hid' ▸ hc⟩)
    exact .inl (explains_register (hid' ▸ hid) hc' hcontainer hd hfollows.yields
      (by rw [hcontext]; exact hactive) (by rw [hcontext]) hfollows.path_eq
      (hfollows.owner_eq.trans hid'.symm))
  | refused cause =>
    have hexplains : cause.Explains t path s₀.container s.container :=
      LoadCause.explains_of_not_ofRegistration hends hcontainer
    exact .inl (explains_fail hid hc hexplains none)
  | crashed c' => exact .inr ⟨_, rfl, hcontainer⟩
  | waiting draft requirements exports => exact hends.elim

end Work

/-- **A load ends in a record that explains what it did, or breaks down**, and the container is then
as it was. -/
theorem loadModule_explains_or_crashes (t : ModuleTable β) (s : Site β) (path : Path) :
    (∃ r s', Loader.loadModule (.linked t) true s path = (.finished r, s') ∧
      r.Explains t s path s') ∨
    ∃ s', Loader.loadModule (.linked t) true s path = (.crashed, s') ∧
      s'.container = s.container := by
  obtain ⟨c, s₁, hcreate⟩ : ∃ c s₁, s.createContext (.linked t) = (c, s₁) := ⟨_, _, rfl⟩
  have hid : c.id ∉ s.contexts.map (·.id) := by
    cases hcreate
    exact s.fresh_id
  have hc : s₁.context? c.id = some c := by
    have hnew := s.context?_createContext (.linked t)
    rwa [hcreate] at hnew
  obtain ⟨hsource, hactive, howned, hcontainer⟩ :
      c.source = .linked t ∧ c.unloaded = false ∧ c.modules = [] ∧
        s₁.container = s.container := by
    cases hcreate
    exact ⟨rfl, rfl, rfl, rfl⟩
  simp only [Loader.loadModule, Work.advance, Site.load, hcreate]
  rcases LoadContext.load_linked hsource hactive true s₁.host s₁.files s₁.linker path with
    ⟨d, hd, hload⟩ | ⟨cause, hcause, hload⟩
  · rw [hload]
    have hfollows := c.follows_accept true s₁.host path d
    have hends := c.ends_accept s₁.host path d
    exact Work.explains_admitted hid hc hcontainer hd hactive howned hfollows hends
  · rw [hload]
    have hexplains : cause.Explains t path s.container s₁.container :=
      LoadCause.explains_of_not_ofRegistration hcause hcontainer
    exact .inl (Work.explains_fail hid hc hexplains none)

end ModularHost

import ModularHost.Proofs.Module.FreshContext
/-!
# Where a load breaks down

A load calls code of its module at three places: for each requirement, for each export, and to
register. What panics while it registers is caught, and becomes the cause of a failure like any
other. Nothing is caught before that. So a load has no record exactly if code that describes a type
is called and panics (`ModuleTable.BreaksDown`): the requirements in front of it are met, or all of
them are if it describes an export.

A load that does not break down has a record that explains what it did, and one that does leaves its
context neither unloaded nor with a module, but with the exports that were offered by then
(`loadModule_accounts`). Every panic of a registration is contained (`panics_contained`).
-/


namespace ModularHost

variable {β : Type}

/-! ## What becomes of the load -/

/-- A record tells how a registration ended. -/
def ModuleRecord.Reports (r : ModuleRecord β) (m : LoadedModule β) : Registration β → Prop
  | .completed => r.outcome = .ok m
  | .refused e => r.outcome = .error (.registration e)
  | .panicked p => r.outcome = .error (.panicked p)
  | .waiting _ => False

theorem Work.reports_register (s : Site β) (m : LoadedModule β) :
    ∃ r s', register true s m m.registration = (.finished r, s') ∧
      s'.container = (runRegistration true m.registration s.container).2 ∧
      r.Reports m (runRegistration true m.registration s.container).1 := by
  obtain ⟨-, hcontainer⟩ := frame_register true s m m.registration
  obtain ⟨done, left, -, -, hstop⟩ := registers_run m.registration s.container
  simp only [register, Site.register] at hcontainer ⊢
  rcases hrun : runRegistration true m.registration s.container with
    ⟨(- | e | p | steps), container⟩ <;> rw [hrun] at hcontainer hstop
  · exact ⟨_, _, rfl, hcontainer, rfl⟩
  · exact ⟨_, _, rfl, hcontainer, rfl⟩
  · exact ⟨_, _, rfl, hcontainer, rfl⟩
  · exact hstop.elim

/-- The context that the next load from a table is into. -/
def Site.nextContext (s : Site β) (t : ModuleTable β) : LoadContext β :=
  (s.createContext (.linked t)).1

/-- **How a load ends, by how its module was admitted.** The container is as it was, but for what
was registered. -/
inductive Site.Ends (s : Site β) : Admission β → WorkState β × Site β → Prop
  | crashed {c' : LoadContext β} {s' : Site β} : s'.container = s.container →
    Ends s (.crashed c') (.crashed, s')
  | refused {cause : LoadCause} {r : ModuleRecord β} {s' : Site β} :
    cause.ofRegistration = false → r.outcome = .error cause → s'.container = s.container →
    Ends s (.refused cause) (.finished r, s')
  | registered {c' : LoadContext β} {m : LoadedModule β} {r : ModuleRecord β} {s' : Site β} :
    s'.container = (runRegistration true m.registration s.container).2 →
    r.Reports m (runRegistration true m.registration s.container).1 →
    Ends s (.admitted c' m) (.finished r, s')

/-- **A load from a table ends.** -/
theorem ends_loadModule (t : ModuleTable β) (s : Site β) (path : Path) :
    s.Ends ((s.nextContext t).load true s.host s.files s.linker path).1
      (Loader.loadModule (.linked t) true s path) := by
  obtain ⟨s₁, -, hcontainer, hadvance⟩ := Work.advance_queued true (.linked t) s path
  have hsource : (s.nextContext t).source = .linked t := rfl
  have hends : ∃ describers,
      ((s.nextContext t).load true s.host s.files s.linker path).1.Ends describers := by
    rcases LoadContext.load_linked hsource rfl true s.host s.files s.linker path with
      ⟨d, -, hload⟩ | ⟨cause, hcause, hload⟩
    · rw [hload]
      exact ⟨_, (s.nextContext t).ends_accept s.host path d⟩
    · rw [hload]
      exact ⟨[], hcause⟩
  obtain ⟨describers, hends⟩ := hends
  have hmodule : Loader.loadModule (.linked t) true s path = Work.admitted true s₁ path
      ⟨s.contexts.length⟩ ((s.nextContext t).load true s.host s.files s.linker path).1 := hadvance
  rw [hmodule]
  generalize ((s.nextContext t).load true s.host s.files s.linker path).1 = admission at hends ⊢
  cases admission with
  | crashed c' => exact .crashed hcontainer
  | refused cause =>
    obtain ⟨s', -, hsame, hfail⟩ := Work.admitted_refused true s₁ path ⟨s.contexts.length⟩ cause
    rw [hfail]
    exact .refused hends rfl (hsame.trans hcontainer)
  | admitted c' m =>
    obtain ⟨r, s', hregister, hdone, hreports⟩ := Work.reports_register s₁ m
    rw [hcontainer] at hdone hreports
    rw [Work.admitted, hregister]
    exact .registered hdone hreports
  | waiting draft requirements exports => exact hends.elim

/-- Code that describes a type is called in a load, and panics. -/
def ModuleTable.BreaksDown (t : ModuleTable β) (s : Site β) (path : Path) : Prop :=
  ∃ d offered, (s.nextContext t).Eligible t path d ∧
    (s.nextContext t).HitsPanic s.host d offered

/-- **A load has a record exactly if it does not break down.** -/
theorem exists_record_iff (t : ModuleTable β) (s : Site β) (path : Path) :
    (∃ r s', Loader.loadModule (.linked t) true s path = (.finished r, s')) ↔
      ¬ t.BreaksDown s path := by
  have hbreaks : (∃ c', ((s.nextContext t).load true s.host s.files s.linker path).1 =
      .crashed c') ↔ t.BreaksDown s path :=
    LoadContext.load_crashed_iff rfl
  have hends := ends_loadModule t s path
  rw [← hbreaks]
  generalize ((s.nextContext t).load true s.host s.files s.linker path).1 = admission at hends ⊢
  generalize Loader.loadModule (.linked t) true s path = outcome at hends ⊢
  cases hends <;> simp

/-- **A load that breaks down leaves its context behind**, with the exports that were offered by
then, and changes nothing else. -/
theorem loadModule_of_breaksDown {t : ModuleTable β} {s : Site β} {path : Path}
    (h : t.BreaksDown s path) :
    ∃ d c s', Loader.loadModule (.linked t) true s path = (.crashed, s') ∧
      s'.container = s.container ∧ s.Gains s' c ∧ (s.nextContext t).Eligible t path d ∧
      (s.nextContext t).BreaksOff s.host d c ∧ c.unloaded = false ∧ c.modules = [] := by
  have hnone : ¬ ∃ r s', Loader.loadModule (.linked t) true s path = (.finished r, s') :=
    fun hrecord => (exists_record_iff t s path).1 hrecord h
  rcases loadModule_explains_or_crashes t s path with
    ⟨r, s', hload, -⟩ | ⟨s', hload, hcontainer⟩
  · exact (hnone ⟨r, s', hload⟩).elim
  · rcases loadModule_tellsContext (.linked t) s path with
      ⟨r, _, s₁, hfinished, -⟩ | ⟨c, s₁, hcrashed, hgains, howned, hactive, hadmission⟩
    · exact (hnone ⟨r, s₁, hfinished⟩).elim
    · cases hload.symm.trans hcrashed
      cases LoadContext.decided_of_load rfl hadmission with
      | breaksOff hd hleft =>
        exact ⟨_, c, s', hload, hcontainer, hgains, hd, hleft, hactive, howned⟩

/-! ## What the load accounts for -/

/-- **A load accounts for what it did, unless it breaks down.** Whatever the table, the host, the
container and the path, and wherever the module's registration stops, loading answers a record with
the path and a context that there was not before. The bindings that were there come first
afterwards, as they were. If the module was loaded, its context is active and owns it alone, and the
bindings after those are all of its own; if it was not, the context is closed, and they are those
that were registered before the cause of the failure.

A load that breaks down has no record. The container, the host and the other contexts are as they
were, and the new context is left active and without a module. It has the exports that the module
offered in front of the panic, and nobody to unload it. -/
theorem loadModule_accounts (t : ModuleTable β) (s : Site β) (path : Path) :
    (¬ t.BreaksDown s path ∧ ∃ r s', Loader.loadModule (.linked t) true s path = (.finished r, s') ∧
      r.Explains t s path s') ∨
    (t.BreaksDown s path ∧ ∃ d c s', Loader.loadModule (.linked t) true s path = (.crashed, s') ∧
      s'.container = s.container ∧ s.Gains s' c ∧ (s.nextContext t).Eligible t path d ∧
      (s.nextContext t).BreaksOff s.host d c ∧ c.unloaded = false ∧ c.modules = []) := by
  by_cases hbreaks : t.BreaksDown s path
  · exact .inr ⟨hbreaks, loadModule_of_breaksDown hbreaks⟩
  · obtain ⟨r₀, s₀, hfinished⟩ := (exists_record_iff t s path).2 hbreaks
    rcases loadModule_explains_or_crashes t s path with hexplains | ⟨s', hcrashed, -⟩
    · exact .inl ⟨hbreaks, hexplains⟩
    · cases hcrashed.symm.trans hfinished

/-- **Not every load has a record to account for it.** -/
theorem squallModules_unaccounted :
    ¬ ∀ (t : ModuleTable Unit) (s : Site Unit) (path : Path),
      ∃ r s', Loader.loadModule (.linked t) true s path = (.finished r, s') ∧
        r.Explains t s path s' := by
  intro h
  obtain ⟨r, s', hload, -⟩ := h SiteRun.squallModules default ⟨"squall.module"⟩
  cases congrArg Prod.fst hload

/-! ## What is contained -/

/-- **A record of a load, and what the load has left.** A load that failed has unloaded its context,
which owns nothing, and before a registration nothing was done to the container. -/
structure ModuleRecord.Closes (r : ModuleRecord β) (s s' : Site β) : Prop where
  context : ∃ c, s.Gains s' c ∧ r.context = some c.id ∧
    (r.isLoaded = false → c.unloaded = true ∧ c.modules = [])
  container : ∀ cause, r.outcome = .error cause → cause.ofRegistration = false →
    s'.container = s.container

/-- A record says what has become of its load. -/
theorem closes_of_finished {t : ModuleTable β} {s s' : Site β} {path : Path} {r : ModuleRecord β}
    (h : Loader.loadModule (.linked t) true s path = (.finished r, s')) : r.Closes s s' where
  context := by
    rcases loadModule_tellsContext (.linked t) s path with
      ⟨r', c, s'', hkept, hgains, htells⟩ | ⟨c, s'', hcrashed, -⟩
    · cases h.symm.trans hkept
      refine ⟨c, hgains, htells.context_eq, fun hfailed => ?_⟩
      have hnone : r.module? = none := by
        simpa [ModuleRecord.isLoaded] using hfailed
      exact ⟨by rw [htells.unloaded, hfailed]; rfl, by rw [htells.owned, hnone]; rfl⟩
    · cases h.symm.trans hcrashed
  container cause hcause hbefore := by
    have hends := ends_loadModule t s path
    rw [h] at hends
    generalize ((s.nextContext t).load true s.host s.files s.linker path).1 = admission at hends
    cases hends with
    | refused _ _ hsame => exact hsame
    | @registered _ m _ _ _ hreports =>
      -- a registration fails for causes of its own
      rcases hrun : (runRegistration true m.registration s.container).1 with - | e | p | steps <;>
        rw [hrun] at hreports
      · cases hreports.symm.trans hcause
      · cases hreports.symm.trans hcause
        cases hbefore
      · cases hreports.symm.trans hcause
        cases hbefore
      · exact hreports.elim

/-- **Panics are contained unless they come from code that describes a type.** A load from a table
has a record exactly if no such code is called and panics. The record is that of a module which was
loaded, or the load has unloaded its context. A module that was admitted registers, and the record
says how that ended, be it with a panic. Where a load breaks down, the container is as it was, but
the new context is left active. -/
theorem panics_contained (t : ModuleTable β) (s : Site β) (path : Path) :
    ((∃ r s', Loader.loadModule (.linked t) true s path = (.finished r, s')) ↔
      ¬ t.BreaksDown s path) ∧
    (∀ r s', Loader.loadModule (.linked t) true s path = (.finished r, s') → r.Closes s s') ∧
    (∀ c' m, ((s.nextContext t).load true s.host s.files s.linker path).1 = .admitted c' m →
      ∃ r s', Loader.loadModule (.linked t) true s path = (.finished r, s') ∧
        s'.container = (runRegistration true m.registration s.container).2 ∧
        r.Reports m (runRegistration true m.registration s.container).1) ∧
    (t.BreaksDown s path → ∃ c s', Loader.loadModule (.linked t) true s path = (.crashed, s') ∧
      s'.container = s.container ∧ s.Gains s' c ∧ c.unloaded = false ∧ c.modules = []) := by
  refine ⟨exists_record_iff t s path, fun r s' => closes_of_finished, fun c' m hadmitted => ?_,
    fun hbreaks => ?_⟩
  · have hends := ends_loadModule t s path
    rw [hadmitted] at hends
    generalize Loader.loadModule (.linked t) true s path = outcome at hends ⊢
    cases hends with
    | registered hdone hreports => exact ⟨_, _, rfl, hdone, hreports⟩
  · obtain ⟨_, c, s', hload, hcontainer, hgains, -, -, hactive, howned⟩ :=
      loadModule_of_breaksDown hbreaks
    exact ⟨c, s', hload, hcontainer, hgains, hactive, howned⟩

/-- One module whose code panics where it describes what the module requires. -/
def stormModules : ModuleTable Unit :=
  .ofList [⟨2, "storm", "1.0.0", [⟨false, .error ⟨some "no radar"⟩⟩], [], []⟩]

/-- Its load has no record, and leaves a context that nobody has unloaded. -/
theorem stormModules_without_record :
    (¬ ∃ r s', Loader.loadModule (.linked stormModules) true default ⟨"storm.module"⟩ =
      (.finished r, s')) ∧
    ∃ c, (Loader.loadModule (.linked stormModules) true default ⟨"storm.module"⟩).2.context? ⟨0⟩ =
      some c ∧ c.unloaded = false := by
  refine ⟨?_, _, rfl, rfl⟩
  rintro ⟨r, s', h⟩
  cases congrArg Prod.fst h

end ModularHost

import ModularHost.Proofs.Module.Advance
import ModularHost.Proofs.Module.Decision
/-!
# The context of a load

A load makes a context for its module and leaves the other contexts alone (`Site.Gains`). What
becomes of the new one goes by the record: it owns the module if that was loaded, and is unloaded if
not (`ModuleRecord.TellsContext`). The record holds every module that was admitted, also one whose
registration failed (`loadModule_tellsContext`).
-/


namespace ModularHost

variable {β : Type}

/-! ## One more context -/

/-- A site has one more context than before; the others, the host and the files are as they
were. -/
structure Site.Gains (s s' : Site β) (c : LoadContext β) : Prop where
  id_eq : c.id = ⟨s.contexts.length⟩
  found : s'.context? c.id = some c
  others : ∀ id, id ≠ c.id → s'.context? id = s.context? id
  beside : s.Beside s'

namespace Site

variable {s s' : Site β} {c c' : LoadContext β}

theorem gains_createContext (s : Site β) (source : ModuleSource β) :
    s.Gains (s.createContext source).2 (s.createContext source).1 where
  id_eq := rfl
  found := s.context?_createContext source
  others id hne := by
    have hnew : (⟨s.contexts.length⟩ : ContextId) ≠ id := fun h => hne h.symm
    simp [createContext, context?, LoadContext.new, List.find?_append, hnew]
  beside := ⟨rfl, rfl⟩

/-- The context was not there before. -/
theorem Gains.absent (h : s.Gains s' c) : s.context? c.id = none := by
  cases hold : s.context? c.id with
  | none => rfl
  | some old =>
    refine absurd ?_ s.fresh_id
    rw [← h.id_eq, ← id_of_context? hold]
    exact List.mem_map_of_mem (List.mem_of_find?_eq_some hold)

/-- The contexts there were are still there. -/
theorem Gains.kept (h : s.Gains s' c) {id : ContextId} {old : LoadContext β}
    (hold : s.context? id = some old) : s'.context? id = some old := by
  refine (h.others id ?_).trans hold
  rintro rfl
  rw [h.absent] at hold
  cases hold

theorem Gains.setContext (h : s.Gains s' c) (hid : c'.id = c.id) :
    s.Gains (s'.setContext c') c' where
  id_eq := hid.trans h.id_eq
  found := context?_setContext (by rw [hid, h.found]; rfl)
  others id hne := by
    rw [context?_setContext_of_ne hne.symm]
    exact h.others id (hid ▸ hne)
  beside := ⟨h.beside.host, h.beside.files⟩

theorem Gains.unload (h : s.Gains s' c) (held : Lease → Bool) :
    s.Gains (s'.unload held c.id).2 (c.unload held).2 := by
  rw [unload_eq held h.found]
  exact h.setContext rfl

/-- What stands beside the contexts may change. -/
theorem Gains.of_contexts_eq (h : s.Gains s' c) {s'' : Site β}
    (hcontexts : s''.contexts = s'.contexts) (hbeside : s'.Beside s'') : s.Gains s'' c := by
  have hsame : ∀ id, s''.context? id = s'.context? id := fun id => by
    rw [context?, context?, hcontexts]
  exact ⟨h.id_eq, (hsame c.id).trans h.found, fun id hne => (hsame id).trans (h.others id hne),
    h.beside.trans hbeside⟩

end Site

/-! ## What the record says of it -/

/-- The modules that a record holds. -/
def ModuleRecord.held (r : ModuleRecord β) : List (LoadedModule β) :=
  r.module?.toList ++ r.residue.toList

/-- A record says what became of the context of its load. -/
structure ModuleRecord.TellsContext (r : ModuleRecord β) (c : LoadContext β) : Prop where
  context_eq : r.context = some c.id
  owned : c.modules = r.module?.toList
  unloaded : c.unloaded = !r.isLoaded
  residue : r.isLoaded = true → r.residue = none
  held : r.held = [] ∨ ∃ m, r.held = [m] ∧ m.lease = ⟨c.id, 0⟩

namespace Work

variable {s s₁ : Site β} {c : LoadContext β} {m : LoadedModule β}

/-- A load that fails leaves its context unloaded, and its record with what was admitted. -/
theorem tellsContext_fail (h : s.Gains s₁ c) (path : Path) (cause : LoadCause)
    {residue : Option (LoadedModule β)} (hresidue : ∀ m ∈ residue, m.lease = ⟨c.id, 0⟩) :
    ∃ r c' s', fail s₁ path c.id cause residue = (.finished r, s') ∧ s.Gains s' c' ∧
      r.TellsContext c' := by
  refine ⟨_, (c.unload fun _ => false).2, _, rfl, h.unload _, rfl, rfl, rfl, nofun, ?_⟩
  cases residue with
  | none => exact .inl rfl
  | some m => exact .inr ⟨m, rfl, hresidue m rfl⟩

/-- A module that was admitted registers, and is loaded unless that fails. -/
theorem tellsContext_register (h : s.Gains s₁ c) (hactive : c.unloaded = false)
    (howned : c.modules = [m]) (howner : m.context = c.id) (hlease : m.lease = ⟨c.id, 0⟩) :
    ∃ r c' s', register true s₁ m m.registration = (.finished r, s') ∧ s.Gains s' c' ∧
      r.TellsContext c' := by
  obtain ⟨done, left, -, -, hstop⟩ := registers_run m.registration s₁.container
  have hresidue : ∀ m' ∈ some m, m'.lease = ⟨c.id, 0⟩ := by
    rintro m' ⟨⟩
    exact hlease
  have hregistered : ∀ container, s.Gains ({ s₁ with container } : Site β) c :=
    fun _ => h.of_contexts_eq rfl ⟨rfl, rfl⟩
  simp only [register, Site.register, howner]
  rcases hrun : runRegistration true m.registration s₁.container with
    ⟨(- | e | p | steps), container⟩
  · exact ⟨_, c, _, rfl, hregistered container, rfl, howned, hactive, fun _ => rfl,
      .inr ⟨m, rfl, hlease⟩⟩
  · exact tellsContext_fail (hregistered container) m.path (.registration e) hresidue
  · exact tellsContext_fail (hregistered container) m.path (.panicked p) hresidue
  · rw [hrun] at hstop
    exact hstop.elim

end Work

/-- **A load leaves one more context, and its record says in what state**, wherever the context
finds its modules. Where code that describes a type panics there is no record, and the context owns
nothing. -/
theorem loadModule_tellsContext (source : ModuleSource β) (s : Site β) (path : Path) :
    (∃ r c s', Loader.loadModule source true s path = (.finished r, s') ∧ s.Gains s' c ∧
      r.TellsContext c) ∨
    ∃ c s', Loader.loadModule source true s path = (.crashed, s') ∧ s.Gains s' c ∧
      c.modules = [] ∧ c.unloaded = false ∧
      ((LoadContext.new ⟨s.contexts.length⟩ source).load true s.host s.files s.linker path).1 =
        .crashed c := by
  obtain ⟨c, s₁, hcreate⟩ : ∃ c s₁, s.createContext source = (c, s₁) := ⟨_, _, rfl⟩
  have hgains : s.Gains s₁ c := by
    cases hcreate
    exact s.gains_createContext source
  obtain ⟨howned, hactive⟩ : c.modules = [] ∧ c.unloaded = false := by
    cases hcreate
    exact ⟨rfl, rfl⟩
  rcases hload : c.load true s₁.host s₁.files s₁.linker path with ⟨admission, linker⟩
  have hlinked : s.Gains ({ s₁ with linker } : Site β) c := hgains.of_contexts_eq rfl ⟨rfl, rfl⟩
  simp only [Loader.loadModule, Work.advance, Site.load, hcreate, hload]
  cases admission with
  | refused cause => exact .inl (Work.tellsContext_fail hlinked path cause (by simp))
  | admitted c' m =>
    obtain ⟨-, d, hjoins⟩ := LoadContext.joins_of_load (congrArg Prod.fst hload)
    have hid : c'.id = c.id := by rw [hjoins.context_eq]
    refine .inl (Work.tellsContext_register (hlinked.setContext hid) ?_ ?_ ?_ ?_)
    · rw [hjoins.context_eq]
      exact hactive
    · rw [hjoins.context_eq, howned]
      rfl
    · rw [hid]
      exact hjoins.owner_eq
    · rw [hid, hjoins.lease_eq, howned]
      rfl
  | crashed c' =>
    have hcontext := LoadContext.context_of_crashed (congrArg Prod.fst hload)
    have hid : c'.id = c.id := by rw [hcontext]
    refine .inr ⟨c', _, rfl, hlinked.setContext hid, ?_, ?_, ?_⟩
    · rw [hcontext]
      exact howned
    · rw [hcontext]
      exact hactive
    · cases hcreate
      exact congrArg Prod.fst hload
  | waiting draft requirements exports =>
    rcases c.load_cases true s₁.host s₁.files s₁.linker path with
      ⟨cause, hrefused⟩ | ⟨d, -, haccept⟩
    · rw [hload] at hrefused
      cases hrefused
    · have hends := c.ends_accept s₁.host path d
      rw [← haccept, hload] at hends
      exact hends.elim

end ModularHost

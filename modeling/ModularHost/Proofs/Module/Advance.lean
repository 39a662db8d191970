import ModularHost.Proofs.Container.Refinement
import ModularHost.Proofs.Module.Locality
import ModularHost.Proofs.Module.SingleLoad
/-!
# Work, piece by piece

The work of a load goes on from where it stands until it ends or comes to a shut gate. Whichever
piece of it is done, the host and the files stay as they are, and the container is only added to:
nothing while the module is admitted, and the bindings of the steps that were done while it
registers (`register_cases`, `advance_queued`, `advance_admitting`).
-/


namespace ModularHost

variable {β : Type}

/-! ## What is bound -/

namespace RegisterStep

variable {step : RegisterStep β} {steps : List (RegisterStep β)} {b : Binding β}

/-- What a step binds is in a container, as the step says it. -/
def Bound (step : RegisterStep β) (c : Container β) : Prop :=
  step.target? = none ∨
    ∃ minted b, step.binding? minted = some b ∧ b.row.label ∈ c.ledger.rows.map Row.label

theorem Bound.mono {c c' : Container β} (h : step.Bound c) (hext : c.ledger.Extends c'.ledger) :
    step.Bound c' := by
  rcases h with h | ⟨minted, b, hb, hmem⟩
  · exact .inl h
  · exact .inr ⟨minted, b, hb, hext.subset hmem⟩

theorem exists_binding?_of_mem (hmem : step ∈ steps) : ∀ minted,
    step.target? = none ∨
      ∃ minted' b, step.binding? minted' = some b ∧ b ∈ boundBy minted steps := by
  induction steps with
  | nil => cases hmem
  | cons first rest ih =>
    intro minted
    rw [boundBy_cons]
    rcases List.mem_cons.1 hmem with rfl | hrest
    · cases hb : step.binding? minted with
      | none => cases step <;> first | exact .inl rfl | cases hb
      | some b => exact .inr ⟨minted, b, hb, by simp⟩
    · rcases ih hrest (minted + first.mints.toNat) with h | ⟨minted', b, hb, hin⟩
      · exact .inl h
      · exact .inr ⟨minted', b, hb, List.mem_append_right _ hin⟩

/-- What some steps bind, one of them binds. -/
theorem exists_target_of_mem_boundBy : ∀ minted, b ∈ boundBy minted steps →
    ∃ step ∈ steps, step.target? = some (b.contract, b.name) := by
  induction steps with
  | nil => intro minted hb; cases hb
  | cons first rest ih =>
    intro minted hb
    rw [boundBy_cons] at hb
    rcases List.mem_append.1 hb with hfirst | hrest
    · have hbind : first.binding? minted = some b := by simpa using hfirst
      exact ⟨first, List.mem_cons_self, target_of_binding? hbind⟩
    · obtain ⟨step, hstep, ht⟩ := ih _ hrest
      exact ⟨step, List.mem_cons_of_mem _ hstep, ht⟩

end RegisterStep

namespace Container.Adds

variable {c c' : Container β} {done : List (RegisterStep β)}

theorem ledger_extends (h : c.Adds done c') : c.ledger.Extends c'.ledger := by
  simp [Ledger.Extends, ledger, h.bindings]

theorem bound (h : c.Adds done c') : ∀ step ∈ done, step.Bound c' := by
  intro step hstep
  rcases RegisterStep.exists_binding?_of_mem hstep c.minted with hnone | ⟨minted, b, hb, hmem⟩
  · exact .inl hnone
  · refine .inr ⟨minted, b, hb, ?_⟩
    have hin : b ∈ c'.bindings := by
      rw [h.bindings]
      exact List.mem_append_right _ hmem
    exact List.mem_map.2 ⟨b.row, List.mem_map.2 ⟨b, hin, rfl⟩, rfl⟩

end Container.Adds

/-! ## What a piece of work does -/

/-- The host and the files are as they were. -/
structure Site.Beside (s s' : Site β) : Prop where
  host : s'.host = s.host
  files : s'.files = s.files

theorem Site.Beside.trans {s s' s'' : Site β} (h : s.Beside s') (h' : s'.Beside s'') :
    s.Beside s'' :=
  ⟨h'.host.trans h.host, h'.files.trans h.files⟩

theorem Site.beside_unload (s : Site β) (held : Lease → Bool) (id : ContextId) :
    s.Beside (s.unload held id).2 := by
  unfold unload
  split <;> exact ⟨rfl, rfl⟩

/-- What an admission leaves behind it leaves in the contexts. -/
theorem Site.frame_settle (s : Site β) (admission : Admission β) :
    s.Beside (s.settle admission) ∧ (s.settle admission).container = s.container := by
  cases admission <;> exact ⟨⟨rfl, rfl⟩, rfl⟩

/-- Where a load stands after its module has registered as far as it could. -/
inductive WorkState.Registered (m : LoadedModule β) (left : List (RegisterStep β)) :
    WorkState β → Prop
  | done (r : ModuleRecord β) (outcome : r.outcome = .ok m) (all : left = []) :
      Registered m left (.finished r)
  | failed (r : ModuleRecord β) (cause : LoadCause) (outcome : r.outcome = .error cause)
      (ofRegistration : cause.ofRegistration = true) : Registered m left (.finished r)
  | waiting : Registered m left (.waiting (.registering m left))

namespace Work

variable {s : Site β}

/-- A module that registers leaves what its registration leaves in the container, and the rest of
the site beside it. -/
theorem frame_register (gateOpen : Bool) (s : Site β) (m : LoadedModule β)
    (steps : List (RegisterStep β)) :
    s.Beside (register gateOpen s m steps).2 ∧
      (register gateOpen s m steps).2.container =
        (runRegistration gateOpen steps s.container).2 := by
  simp only [register, Site.register]
  rcases runRegistration gateOpen steps s.container with ⟨(- | e | p | rest), container⟩
  · exact ⟨⟨rfl, rfl⟩, rfl⟩
  · have hbeside := Site.beside_unload { s with container } (fun _ => false) m.context
    exact ⟨⟨hbeside.host, hbeside.files⟩, Site.container_unload _ _ _⟩
  · have hbeside := Site.beside_unload { s with container } (fun _ => false) m.context
    exact ⟨⟨hbeside.host, hbeside.files⟩, Site.container_unload _ _ _⟩
  · exact ⟨⟨rfl, rfl⟩, rfl⟩

/-- **A module registers up to where it stops or waits**, and the container has the bindings of what
was done. -/
theorem register_cases (gateOpen : Bool) (s : Site β) (m : LoadedModule β)
    (steps : List (RegisterStep β)) :
    ∃ done left, steps = done ++ left ∧ s.Beside (register gateOpen s m steps).2 ∧
      s.container.Adds done (register gateOpen s m steps).2.container ∧
      (register gateOpen s m steps).1.Registered m left := by
  obtain ⟨done, left, hsteps, hadds, hleft⟩ := runRegistration_adds gateOpen steps s.container
  obtain ⟨hbeside, hcontainer⟩ := frame_register gateOpen s m steps
  refine ⟨done, left, hsteps, hbeside, hcontainer ▸ hadds, ?_⟩
  simp only [register, Site.register]
  rcases hrun : runRegistration gateOpen steps s.container with ⟨(- | e | p | rest), container⟩ <;>
    rw [hrun] at hleft
  · exact .done _ rfl hleft
  · exact .failed _ _ rfl rfl
  · exact .failed _ _ rfl rfl
  · obtain rfl : rest = left := hleft
    exact .waiting

/-- Work that begins admits its module into a context of its own. -/
theorem advance_queued (gateOpen : Bool) (source : ModuleSource β) (s : Site β) (path : Path) :
    ∃ s' : Site β, s.Beside s' ∧ s'.container = s.container ∧
      advance gateOpen source s (.queued path) =
        admitted gateOpen s' path ⟨s.contexts.length⟩
          ((LoadContext.new ⟨s.contexts.length⟩ source).load gateOpen s.host s.files s.linker
            path).1 := by
  obtain ⟨hbeside, hcontainer⟩ := Site.frame_settle
    { (s.createContext source).2 with
      linker := ((LoadContext.new ⟨s.contexts.length⟩ source).load gateOpen s.host s.files s.linker
        path).2 }
    ((LoadContext.new ⟨s.contexts.length⟩ source).load gateOpen s.host s.files s.linker path).1
  exact ⟨_, ⟨hbeside.host, hbeside.files⟩, hcontainer, rfl⟩

/-- Work that stands in an admission goes on with it. -/
theorem advance_admitting (gateOpen : Bool) (source : ModuleSource β) (s : Site β) (d : Draft β)
    (requirements exports : List Describer) :
    ∃ s' : Site β, s.Beside s' ∧ s'.container = s.container ∧
      advance gateOpen source s (.admitting d requirements exports) =
        admitted gateOpen s' d.path d.context.id
          (d.requireAll gateOpen s.host exports requirements) := by
  obtain ⟨hbeside, hcontainer⟩ :=
    s.frame_settle (d.requireAll gateOpen s.host exports requirements)
  exact ⟨_, hbeside, hcontainer, rfl⟩

/-- A load that is refused ends with its cause, and has done nothing to the container. -/
theorem admitted_refused (gateOpen : Bool) (s : Site β) (path : Path) (id : ContextId)
    (cause : LoadCause) :
    ∃ s' : Site β, s.Beside s' ∧ s'.container = s.container ∧
      admitted gateOpen s path id (.refused cause) =
        (.finished ⟨path, some id, .error cause, none⟩, s') :=
  ⟨_, s.beside_unload _ id, s.container_unload _ id, rfl⟩

/-! ## What a load has bound -/

end Work

/-- What a load has done of its module's registration is in the container. -/
def WorkState.Bound (c : Container β) : WorkState β → Prop
  | .finished r => ∀ m, r.outcome = .ok m → ∀ step ∈ m.registration, step.Bound c
  | .waiting (.registering m steps) =>
    ∃ done, m.registration = done ++ steps ∧ ∀ step ∈ done, step.Bound c
  | .crashed | .waiting _ => True

theorem WorkState.Bound.mono {c c' : Container β} {state : WorkState β} (h : state.Bound c)
    (hext : c.ledger.Extends c'.ledger) : state.Bound c' := by
  rcases state with r | - | (path | ⟨d, requirements, exports⟩ | ⟨m, steps⟩)
  · exact fun m hm step hstep => (h m hm step hstep).mono hext
  · trivial
  · trivial
  · trivial
  · obtain ⟨done, hsteps, hbound⟩ := h
    exact ⟨done, hsteps, fun step hstep => (hbound step hstep).mono hext⟩

namespace Work

/-- A registration that goes on binds the steps it does. -/
theorem bound_register (gateOpen : Bool) (s : Site β) {m : LoadedModule β}
    {done steps : List (RegisterStep β)} (hsteps : m.registration = done ++ steps)
    (hbound : ∀ step ∈ done, step.Bound s.container) :
    s.container.ledger.Extends (register gateOpen s m steps).2.container.ledger ∧
      (register gateOpen s m steps).1.Bound (register gateOpen s m steps).2.container := by
  obtain ⟨more, left, hmore, -, hadds, hstands⟩ := register_cases gateOpen s m steps
  have hall : ∀ step ∈ done ++ more, step.Bound (register gateOpen s m steps).2.container := by
    intro step hstep
    rcases List.mem_append.1 hstep with hstep | hstep
    · exact (hbound step hstep).mono hadds.ledger_extends
    · exact hadds.bound step hstep
  have hsplit : m.registration = (done ++ more) ++ left := by
    rw [hsteps, hmore, List.append_assoc]
  refine ⟨hadds.ledger_extends, ?_⟩
  revert hstands
  generalize (register gateOpen s m steps).1 = state
  rintro (⟨r, hr, rfl⟩ | ⟨r, cause, hr, -⟩ | -)
  · intro m' hm'
    rw [hr] at hm'
    cases hm'
    rw [hsplit, List.append_nil]
    exact hall
  · intro m' hm'
    rw [hr] at hm'
    cases hm'
  · exact ⟨done ++ more, hsplit, hall⟩

theorem bound_admitted (gateOpen : Bool) (s : Site β) (path : Path) (id : ContextId)
    (admission : Admission β) :
    s.container.ledger.Extends (admitted gateOpen s path id admission).2.container.ledger ∧
      (admitted gateOpen s path id admission).1.Bound
        (admitted gateOpen s path id admission).2.container := by
  cases admission with
  | admitted c m =>
    have hnone : m.registration = [] ++ m.registration := rfl
    exact bound_register gateOpen s hnone fun step hstep => by cases hstep
  | refused cause =>
    obtain ⟨s', -, hcontainer, heq⟩ := admitted_refused gateOpen s path id cause
    rw [heq, hcontainer]
    exact ⟨.refl _, fun m hm => by cases hm⟩
  | crashed c => exact ⟨.refl _, trivial⟩
  | waiting d requirements exports => exact ⟨.refl _, trivial⟩

/-- **A piece of work takes nothing out of the container, and binds what it does.** -/
theorem bound_advance (gateOpen : Bool) (source : ModuleSource β) (s : Site β) {work : Work β}
    (h : (WorkState.waiting work).Bound s.container) :
    s.container.ledger.Extends (work.advance gateOpen source s).2.container.ledger ∧
      (work.advance gateOpen source s).1.Bound (work.advance gateOpen source s).2.container := by
  cases work with
  | queued path =>
    obtain ⟨s', -, hcontainer, heq⟩ := advance_queued gateOpen source s path
    rw [heq, ← hcontainer]
    exact bound_admitted gateOpen s' path _ _
  | admitting d requirements exports =>
    obtain ⟨s', -, hcontainer, heq⟩ := advance_admitting gateOpen source s d requirements exports
    rw [heq, ← hcontainer]
    exact bound_admitted gateOpen s' d.path _ _
  | registering m steps =>
    obtain ⟨done, hsteps, hbound⟩ := h
    exact bound_register gateOpen s hsteps hbound

end Work
end ModularHost

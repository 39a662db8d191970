import ModularHost.Proofs.Module.Advance
/-!
# A load by itself

What becomes of a load depends on the host, the files, and whether the contracts and names that its
module registers are taken; nothing else that is loaded reaches it. Where it comes among other loads
shows in one thing, the identifier of the context that is made for it, and that in turn in what the
module exports and in who holds it (`ModuleRecord.movedTo`). So a load that begins on one site comes
to the same on another, moved to the context it has there, and adds the same to the container
(`loadModule_moved`).
-/


namespace ModularHost

variable {β : Type} {id : ContextId}

/-! ## In another context -/

/-- The type as another context exports it. -/
def SharedType.movedTo (id : ContextId) (s : SharedType) : SharedType :=
  { s with origin := .context id }

/-- The module as another context owns it. What it was given stays as it is. -/
def LoadedModule.movedTo (id : ContextId) (m : LoadedModule β) : LoadedModule β :=
  { m with
    context := id
    exports := m.exports.map (·.movedTo id)
    lease := ⟨id, m.lease.number⟩ }

/-- The record of the same load in another context. -/
def ModuleRecord.movedTo (id : ContextId) (r : ModuleRecord β) : ModuleRecord β :=
  { r with
    context := r.context.map fun _ => id
    outcome := r.outcome.map (·.movedTo id)
    residue := r.residue.map (·.movedTo id) }

def WorkState.movedTo (id : ContextId) : WorkState β → WorkState β
  | .finished r => .finished (r.movedTo id)
  | .crashed => .crashed
  | .waiting work => .waiting work

/-- The admission under way in another context. -/
def Draft.movedTo (id : ContextId) (d : Draft β) : Draft β :=
  { d with
    context := { d.context with id, exports := d.context.exports.map (·.movedTo id) }
    exports := d.exports.map (·.movedTo id) }

/-- Two admissions of some declaration, both at their end, differ by their contexts only. -/
inductive Admission.Moved (id : ContextId) (path : Path) (steps : List (RegisterStep β)) :
    Admission β → Admission β → Prop
  | admitted (c c' : LoadContext β) (m : LoadedModule β) (path_eq : m.path = path)
    (registration : m.registration = steps) :
    Moved id path steps (.admitted c m) (.admitted c' (m.movedTo id))
  | refused (cause : LoadCause) : Moved id path steps (.refused cause) (.refused cause)
  | crashed (c c' : LoadContext β) : Moved id path steps (.crashed c) (.crashed c')

theorem LoadedModule.movedTo_movedTo (id' : ContextId) (m : LoadedModule β) :
    (m.movedTo id).movedTo id' = m.movedTo id' := by
  simp [movedTo, SharedType.movedTo]

/-- Where a load was moved from does not show. -/
theorem ModuleRecord.movedTo_movedTo (id' : ContextId) (r : ModuleRecord β) :
    (r.movedTo id).movedTo id' = r.movedTo id' := by
  obtain ⟨path, context, outcome, residue⟩ := r
  cases context <;> cases outcome <;> cases residue <;>
    simp [movedTo, Except.map, LoadedModule.movedTo_movedTo]

namespace Draft

theorem any_name_movedTo (exports : List SharedType) (name : String) :
    (exports.map (·.movedTo id)).any (·.name == name) = exports.any (·.name == name) := by
  rw [List.any_map]
  rfl

theorem movedTo_offer (d : Draft β) (host : HostScope) (offered : NamedType) :
    (d.movedTo id).offer host offered = (d.offer host offered).movedTo id := by
  simp only [offer, movedTo, any_name_movedTo, List.length_map]
  split
  · rfl
  · simp only [List.map_append, List.map_singleton, SharedType.movedTo]

variable {path : Path} {steps : List (RegisterStep β)}

theorem moved_offerAll (host : HostScope) (exports : List Describer) : ∀ d : Draft β,
    d.path = path → d.declaration.registration = steps →
      (d.offerAll true host exports).Moved id path steps
        ((d.movedTo id).offerAll true host exports) := by
  induction exports with
  | nil => intro d hpath hsteps; exact .admitted _ _ _ hpath hsteps
  | cons describer rest ih =>
    intro d hpath hsteps
    unfold offerAll
    rw [if_neg (by simp), if_neg (by simp)]
    cases describer.answer with
    | error p => exact .crashed _ _
    | ok offered =>
      dsimp only
      obtain ⟨hpath', hdecl', -⟩ := d.frame_offer host offered
      rw [movedTo_offer]
      exact ih _ (hpath'.trans hpath) ((congrArg (·.registration) hdecl').trans hsteps)

/-- As long as the context exports nothing, what is required is found with the host. -/
theorem moved_requireAll (host : HostScope) (exports left : List Describer) : ∀ d : Draft β,
    d.path = path → d.declaration.registration = steps → d.context.exports = [] →
      (d.requireAll true host exports left).Moved id path steps
        ((d.movedTo id).requireAll true host exports left) := by
  induction left with
  | nil => intro d hpath hsteps _; exact moved_offerAll host exports d hpath hsteps
  | cons describer rest ih =>
    intro d hpath hsteps hbare
    have hresolve : ∀ name, (d.movedTo id).context.resolveType host name =
        d.context.resolveType host name := by
      intro name
      simp [LoadContext.resolveType, movedTo, hbare]
    unfold requireAll
    rw [if_neg (by simp), if_neg (by simp)]
    cases describer.answer with
    | error p => exact .crashed _ _
    | ok wanted =>
      dsimp only
      rw [hresolve]
      cases d.context.resolveType host wanted.name with
      | none => exact .refused _
      | some shared =>
        dsimp only
        split
        · exact ih _ hpath hsteps hbare
        · exact .refused _

end Draft

/-- What is registered by the module that a path stands for. -/
def ModuleTable.registrationFor (t : ModuleTable β) (path : Path) : List (RegisterStep β) :=
  (t.findForPath path).elim [] (·.registration)

variable {t : ModuleTable β} {path : Path}

theorem LoadContext.moved_accept {d : Declaration β} (hd : t.findForPath path = some d)
    (id₀ : ContextId) (host : HostScope) :
    ((LoadContext.new id₀ (.linked t)).accept true host path d).Moved id path
      (t.registrationFor path) ((LoadContext.new id (.linked t)).accept true host path d) := by
  have hsteps : d.registration = t.registrationFor path := by
    rw [ModuleTable.registrationFor, hd, Option.elim_some]
  unfold accept
  simp only [LoadContext.new, Bool.false_eq_true, if_false, List.any_nil]
  split
  · exact .refused _
  · split
    · exact .refused _
    · exact Draft.moved_requireAll host d.exports d.requirements
        ⟨⟨id₀, .linked t, [], [], false⟩, path, d, [], []⟩ rfl hsteps rfl

/-- **Two loads of a path into contexts of their own differ by their contexts only.** -/
theorem LoadContext.moved_load (t : ModuleTable β) (id₀ id : ContextId) (host : HostScope)
    (files : FileTree (Library β)) (linker linker' : Linker β) (path : Path) :
    ((LoadContext.new id₀ (.linked t)).load true host files linker path).1.Moved id path
      (t.registrationFor path)
      ((LoadContext.new id (.linked t)).load true host files linker' path).1 := by
  unfold load
  simp only [LoadContext.new, ModuleSource.find, Bool.false_eq_true, if_false]
  cases hd : t.findForPath path with
  | some d => exact LoadContext.moved_accept hd id₀ host
  | none =>
    cases files.isFile path <;> exact .refused _

/-! ## The load -/

/-- Work has come to its end, and if with a record then with one of a path. -/
def WorkState.EndsAt (path : Path) : WorkState β → Prop
  | .finished r => r.path = path
  | .crashed => True
  | .waiting _ => False

theorem Registration.ends (steps : List (RegisterStep β)) (c : Container β) :
    ∀ left, (runRegistration true steps c).1 ≠ .waiting left := by
  intro left hwaiting
  obtain ⟨_, _, _, _, hstop⟩ := registers_run steps c
  rw [hwaiting] at hstop
  exact hstop

namespace Work

/-- A registration that comes to the same ends its load in the same way. -/
theorem moved_register (id : ContextId) {s s₀ : Site β} (m : LoadedModule β)
    {steps : List (RegisterStep β)}
    (hrun : (runRegistration true steps s.container).1 =
      (runRegistration true steps s₀.container).1) :
    (register true s (m.movedTo id) steps).1 = (register true s₀ m steps).1.movedTo id ∧
      (register true s₀ m steps).1.EndsAt m.path := by
  have hends := Registration.ends steps s₀.container
  simp only [register, Site.register]
  rcases hs : runRegistration true steps s.container with ⟨outcome, container⟩
  rcases hs₀ : runRegistration true steps s₀.container with ⟨outcome₀, container₀⟩
  rw [hs, hs₀] at hrun
  rw [hs₀] at hends
  obtain rfl : outcome = outcome₀ := hrun
  cases outcome with
  | completed => exact ⟨rfl, rfl⟩
  | refused e => exact ⟨rfl, rfl⟩
  | panicked p => exact ⟨rfl, rfl⟩
  | waiting left => exact absurd rfl (hends left)

/-- Admissions that differ by their contexts only go on to the same. -/
theorem moved_admitted (s₀ : Site β) (path : Path) (steps : List (RegisterStep β)) (id₀ : ContextId)
    (admission₀ : Admission β) :
    ∃ done, done ⊆ steps ∧ ∀ (s : Site β) (id : ContextId) (admission : Admission β),
      admission₀.Moved id path steps admission →
      RegisterStep.Agree steps s₀.container s.container →
        (admitted true s₀ path id₀ admission₀).1.EndsAt path ∧
        (admitted true s path id admission).1 =
          (admitted true s₀ path id₀ admission₀).1.movedTo id ∧
        s.Beside (admitted true s path id admission).2 ∧
        s.container.Adds done (admitted true s path id admission).2.container := by
  cases admission₀ with
  | admitted c m =>
    obtain ⟨done, left, hsplit, -, hall⟩ := runRegistration_congr true steps s₀.container
    refine ⟨done, hsplit ▸ List.subset_append_left _ _, ?_⟩
    intro s id _ hmoved hagree
    obtain ⟨_, _, _, rfl, rfl⟩ := hmoved
    obtain ⟨hadds, hrun⟩ := hall s.container hagree
    obtain ⟨hbeside, hcontainer⟩ := frame_register true s (m.movedTo id) m.registration
    obtain ⟨hsame, hends⟩ := moved_register id m hrun
    exact ⟨hends, hsame, hbeside, hcontainer ▸ hadds⟩
  | refused cause =>
    refine ⟨[], List.nil_subset _, ?_⟩
    rintro s id _ ⟨⟩ -
    obtain ⟨s', hbeside, hcontainer, hrefused⟩ := admitted_refused true s path id cause
    rw [hrefused]
    exact ⟨rfl, rfl, hbeside, hcontainer ▸ .nil _⟩
  | crashed c =>
    refine ⟨[], List.nil_subset _, ?_⟩
    rintro s id _ ⟨⟩ -
    exact ⟨trivial, rfl, ⟨rfl, rfl⟩, .nil _⟩
  | waiting draft left exports => exact ⟨[], List.nil_subset _, fun _ _ _ hmoved => nomatch hmoved⟩

end Work

/-- What the load of a path comes to and registers, on a site and on any other where the contracts
and names that its module registers are taken alike. -/
structure ModuleTable.LoadsAs (t : ModuleTable β) (s₀ : Site β) (path : Path)
    (done : List (RegisterStep β)) : Prop where
  ends : (Loader.loadModule (.linked t) true s₀ path).1.EndsAt path
  registered : done ⊆ t.registrationFor path
  elsewhere : ∀ s : Site β, s₀.Beside s →
    RegisterStep.Agree (t.registrationFor path) s₀.container s.container →
      (Loader.loadModule (.linked t) true s path).1 =
        (Loader.loadModule (.linked t) true s₀ path).1.movedTo ⟨s.contexts.length⟩ ∧
      s₀.Beside (Loader.loadModule (.linked t) true s path).2 ∧
      s.container.Adds done (Loader.loadModule (.linked t) true s path).2.container

/-- **A load comes to the same wherever it comes in turn**, moved to its context there, and adds the
same. -/
theorem loadModule_moved (t : ModuleTable β) (s₀ : Site β) (path : Path) :
    ∃ done, t.LoadsAs s₀ path done := by
  obtain ⟨s₀', -, hcontainer₀, halone⟩ := Work.advance_queued true (.linked t) s₀ path
  obtain ⟨done, hdone, hall⟩ := Work.moved_admitted s₀' path (t.registrationFor path)
    ⟨s₀.contexts.length⟩ ((LoadContext.new ⟨s₀.contexts.length⟩ (.linked t)).load true s₀.host
      s₀.files s₀.linker path).1
  rw [← Loader.loadModule] at halone
  rw [← halone, hcontainer₀] at hall
  refine ⟨done, ?_, hdone, fun s hbeside hagree => ?_⟩
  · have hmoved := LoadContext.moved_load t ⟨s₀.contexts.length⟩ ⟨s₀.contexts.length⟩ s₀.host
      s₀.files s₀.linker s₀.linker path
    exact (hall s₀ _ _ hmoved fun _ _ _ _ _ => rfl).1
  · obtain ⟨s', hbeside', hcontainer, heq⟩ := Work.advance_queued true (.linked t) s path
    rw [← Loader.loadModule, hbeside.host, hbeside.files] at heq
    have hmoved := LoadContext.moved_load t ⟨s₀.contexts.length⟩ ⟨s.contexts.length⟩ s₀.host
      s₀.files s₀.linker s.linker path
    obtain ⟨-, hsame, hframe, hadds⟩ := hall s' _ _ hmoved (hcontainer ▸ hagree)
    rw [← heq] at hsame hframe hadds
    exact ⟨hsame, (hbeside.trans hbeside').trans hframe, hcontainer ▸ hadds⟩

end ModularHost
